import RealTimeSystem.System.Cascade
import RealTimeSystem.System.Catalog

/-!
# System — HAL serves as the catalog does

A run of HAL with what its operations return (`Answered`) is a run of the catalog with the same
results, and in the end the segment holds what the catalog says (`Shows`).

**`served_catalog`**: every run of HAL is one of the catalog.
-/

namespace RTS.Hal

open RTS.Support RTS.Uspace

variable {σ : Type} {R : Rtapi σ} {s s' : State σ} {L L' : Lists}

/-- The catalog of a state. -/
def Catalog.of (s : State σ) (L : Lists) : Catalog :=
  ⟨view s.shm L, s.hal_shmem_base, s.shm.lock, s.shm.state⟩

/-- The segment holds what the catalog says. -/
structure Shows (s : State σ) (c : Catalog) : Prop where
  reg : s.shm.Holds c.reg
  base : c.base = s.hal_shmem_base
  lock : c.lock = s.shm.lock
  state : c.state = s.shm.state

/-- The results are one, and the catalog is that of the state. -/
def Done {α : Type} (a b : α) (s : State σ) (c : Catalog) : Prop :=
  b = a ∧ ∃ L, Inv s L ∧ c = .of s L

/-- Where HAL may be called, the program does what the specification allows. -/
def Tracks {α : Type} (x : Prog σ α) (y : Spec Catalog α) : Prop :=
  ∀ s L, Inv s L → Mirrors x y s (.of s L) Done

/-! ### One step -/

theorem Moved.catalog {evs : List Event} (h : Moved s L evs s' L') :
    Catalog.of s' L' = (Catalog.of s L).record evs := by
  simp only [Catalog.of, Catalog.record, h.events, h.base, h.lock, h.state]

/-- A structure of the allocator is not in use. -/
theorem Shape.alloc_offs {a : Arena} {k : Kind} (h : Shape a L) (hk : k ≠ .entry) :
    (a.alloc k).1 = 0 ∨ (a.alloc k).1 ∉ L.act k := by
  by_cases hf : a.Full k
  · exact .inl (by rw [Shape.alloc_full hf])
  refine .inr fun hx => ?_
  rcases h.alloc_cases hf with ⟨x, fs, hl, ha⟩ | ⟨off, brk, hl, hs, ha⟩
  · rw [ha] at hx
    have hn := h.nodup hk
    rw [List.append_assoc] at hn
    exact (List.nodup_append.mp hn).2.2 x hx x (by simp [hl]) rfl
  · rw [ha] at hx
    -- a new structure lies below all others
    obtain ⟨-, -, hbelow⟩ := h.mem.carve hs
    have := hbelow k _ (h.carved_act hk hx)
    have hpos : 0 < k.size := by cases k <;> decide
    omega

/-- The catalog may choose what the allocator answers. -/
theorem Inv.alloc (h : Inv s L) {k : Kind} (hk : (view s.shm L).offs k = L.act k)
    (hne : k ≠ .entry := by decide) :
    (s.shm.arena.alloc k).1 = 0 ∨ (s.shm.arena.alloc k).1 ∉ (Catalog.of s L).reg.offs k := by
  show _ ∨ _ ∉ (view s.shm L).offs k
  rw [hk]
  exact h.good.shape.alloc_offs hne

/-- An operation that is one of the registry. -/
theorem mirrors_perform {x : Prog σ Int} {f : Catalog → Int × List Event} {P : Int → State σ → Prop}
    {E : Stop → State σ → Prop}
    (h : Wp x s (fun r s' => r = (f (.of s L)).1 ∧ (∃ L', Moved s L (f (.of s L)).2 s' L') ∧ P r s')
      E) :
    Mirrors x (Catalog.perform f) s (.of s L) fun a b s' c' => Done a b s' c' ∧ P a s' := by
  refine .of_wp h fun r s' ⟨hr, ⟨L', hm⟩, hp⟩ => ?_
  exact ⟨_, _, ⟨rfl, hm.catalog⟩, ⟨hr.symm, L', hm.inv, rfl⟩, hp⟩

theorem mirrors_refines {x : Prog σ Int} {f : Catalog → Int × List Event}
    {E : Stop → State σ → Prop} (h : Wp x s (fun r s' => Refines s L (f (.of s L)) r s') E) :
    Mirrors x (Catalog.perform f) s (.of s L) Done :=
  (mirrors_perform (P := fun _ _ => True)
    (h.mono (fun _ _ ⟨hr, L', hm, _⟩ => ⟨hr, ⟨L', hm⟩, trivial⟩) fun _ _ => id)).mono
    fun _ _ _ _ => And.left

/-- The program went through an operation of the registry, and the specification follows. -/
theorem mirrors_performed {α β : Type} {x : Prog σ α} {f : Catalog → Int × List Event}
    {g : Int → Spec Catalog β} {r : Int} {Q : α → β → State σ → Catalog → Prop}
    (hr : r = (f (.of s L)).1) (hm : Moved s L (f (.of s L)).2 s' L')
    (h : Mirrors x (g r) s' (.of s' L') Q) : Mirrors x (Catalog.perform f >>= g) s' (.of s L) Q :=
  .ahead ⟨hr, hm.catalog⟩ h

/-- The operation of the registry is refused. -/
theorem mirrors_refused {α : Type} {f : Catalog → Int × List Event} {g : Int → Spec Catalog α}
    {a : α} {r : Int} (h : Inv s L) (e : f (.of s L) = (r, [])) (hg : g r = pure a) :
    Mirrors (pure a : Prog σ α) (Catalog.perform f >>= g) s (.of s L) Done := by
  have hm : Moved s L (f (.of s L)).2 s L := by
    rw [e]
    exact .refl h
  exact mirrors_performed (congrArg Prod.fst e).symm hm (by rw [hg]; exact .pure ⟨rfl, L, h, rfl⟩)

/-- A result that the caller wraps. -/
theorem Tracks.map {α β : Type} {x : Prog σ α} {y : Spec Catalog α} (h : Tracks x y) (g : α → β) :
    Tracks (g <$> x) (g <$> y) := fun s L hinv =>
  .map ((h s L hinv).mono fun _ _ _ _ ⟨e, hd⟩ => ⟨congrArg g e, hd⟩)

/-! ### The operations -/

theorem hal_pin_newf_tracks (h : Inv s L) (type : HalType) (data_ptr_addr : Addr) (comp_id : Int)
    (full : CStr) :
    Mirrors (hal_pin_newf type data_ptr_addr comp_id full)
      (Catalog.hal_pin_newf type data_ptr_addr comp_id full) s (.of s L) fun a b s' c' =>
        Done a b s' c' ∧ (a = 0 → s'.shm.cell (data_ptr_addr - s.hal_shmem_base) ≠ 0) :=
  .guess (h.alloc (k := .pin) (keys_tab ..))
    (mirrors_perform ((hal_pin_newf_spec h type data_ptr_addr comp_id full).mono
      (fun _ _ ⟨⟨hr, L', hm, _⟩, hcell⟩ => ⟨hr, ⟨L', hm⟩, hcell⟩) fun _ _ => id))

theorem hal_pin_new_tracks (name : CStr) (type : HalType) (data_ptr_addr : Addr) (comp_id : Int) :
    Tracks (σ := σ) (hal_pin_new name type data_ptr_addr comp_id)
      (Catalog.hal_pin_new name type data_ptr_addr comp_id) := fun _ _ h =>
  .guess (h.alloc (k := .pin) (keys_tab ..)) (mirrors_refines
    ((hal_pin_new_spec h name type data_ptr_addr comp_id).mono (fun _ _ hs => hs.2.1) fun _ _ => id))

theorem hal_param_new_tracks (name : CStr) (type : HalType) (dir : ParamDir) (data_addr : Addr)
    (comp_id : Int) :
    Tracks (σ := σ) (hal_param_new name type dir data_addr comp_id)
      (Catalog.hal_param_new name type dir data_addr comp_id) := fun _ _ h =>
  .guess (h.alloc (k := .param) (keys_tab ..))
    (mirrors_refines (hal_param_new_refines h name type dir data_addr comp_id))

/-- A store into memory is none of the catalog's business. -/
theorem Inv.setData (h : Inv s L) (p : Addr) (v : Int) : Inv (s.setData p v) L :=
  { h with good := ⟨h.good.shape, h.good.sound, h.good.plain⟩ }

theorem mirrors_change {α β : Type} {x : Unit → Prog σ α} {y : Spec Catalog β} {c : Catalog}
    {Q : α → β → State σ → Catalog → Prop} {f : Segment → Segment}
    (h : Mirrors (x ()) y { s with shm := f s.shm } c Q) : Mirrors (change f >>= x) y s c Q :=
  .behind h

theorem mirrors_setData {α β : Type} {x : Unit → Prog σ α} {y : Spec Catalog β} {c : Catalog}
    {Q : α → β → State σ → Catalog → Prop} {p : Addr} {v : Int}
    (h : Mirrors (x ()) y (s.setData p v) c Q) :
    Mirrors ((change fun m => m.setData p v) >>= x) y s c Q := mirrors_change h

/-- The pin and the parameters of a function. -/
theorem export_funct_pins_tracks (name : CStr) (new : Nat) (comp_id : Int) :
    Tracks (σ := σ) (export_funct_pins name new comp_id)
      (Catalog.export_funct_pins name new comp_id) := fun s L h => by
  unfold export_funct_pins Catalog.export_funct_pins
  refine .behind (wp_get.mpr (.get (.bind ?_)))
  refine (hal_pin_newf_tracks h .s32 _ comp_id (name ++ dotTime)).mono fun r₁ _ s₁ _ hpost => ?_
  obtain ⟨⟨rfl, L₁, h₁, rfl⟩, hcell⟩ := hpost
  refine .ite Iff.rfl (fun _ => .pure ⟨rfl, L₁, h₁, rfl⟩) fun hr => ?_
  have hcell' : s₁.shm.cell (new + FUNCT_RUNTIME) ≠ 0 := by
    have := hcell (Decidable.not_not.mp hr)
    rwa [Nat.add_sub_cancel_left] at this
  refine .behind (Returns.to_wp ((returns_storeThrough hcell').mpr (mirrors_setData (.bind ?_))))
  have h₂ := (h₁.setData (s₁.shm.cell (new + FUNCT_RUNTIME)) 0).setData
    (s.hal_shmem_base + (new + FUNCT_MAXTIME)) 0
  refine (hal_param_new_tracks _ _ _ _ _ _ _ h₂).mono fun r₃ _ s₃ _ hpost => ?_
  obtain ⟨rfl, L₃, h₃, rfl⟩ := hpost
  refine mirrors_setData (.bind ?_)
  have h₄ := h₃.setData (s.hal_shmem_base + (new + FUNCT_MAXTIME_INCREASED)) 0
  refine (hal_param_new_tracks _ _ _ _ _ _ _ h₄).mono fun r₅ _ s₅ _ hpost => ?_
  obtain ⟨rfl, L₅, h₅, rfl⟩ := hpost
  exact .pure ⟨rfl, L₅, h₅, rfl⟩

theorem hal_export_funct_tracks (name : CStr) (funct arg : Addr) (uses_fp reentrant comp_id : Int) :
    Tracks (σ := σ) (hal_export_funct name funct arg uses_fp reentrant comp_id)
      (Catalog.hal_export_funct name funct arg uses_fp reentrant comp_id) := fun s L h => by
  unfold hal_export_funct Catalog.hal_export_funct
  refine .behind (wp_get.mpr (.guess (h.alloc (k := .funct) (keys_tab ..)) ?_))
  rw [if_neg h.attached]
  by_cases hn : name.length > HAL_NAME_LEN
  · rw [if_pos hn]
    exact mirrors_refused h (if_pos hn) (if_pos (by decide))
  rw [if_neg hn]
  by_cases hl : s.shm.lock &&& HAL_LOCK_LOAD ≠ 0
  · rw [if_pos hl]
    exact mirrors_refused h ((if_neg hn).trans (if_pos hl)) (if_pos (by decide))
  rw [if_neg hl]
  refine .behind ((export_funct_new_refines h hn hl funct arg uses_fp reentrant comp_id).to_wp.mono
    (fun made s₁ hpost => ?_) fun _ _ => id)
  obtain ⟨⟨hr, L₁, hm, -⟩, herr, hok⟩ := hpost
  refine mirrors_performed hr hm ?_
  cases made with
  | error e =>
      rw [if_pos (show code (.error e) ≠ 0 from herr e rfl)]
      exact .pure ⟨rfl, L₁, hm.inv, rfl⟩
  | ok new =>
      rw [if_neg (show ¬ code (.ok new) ≠ 0 from not_not_intro rfl)]
      obtain rfl := hok new rfl
      exact export_funct_pins_tracks name _ comp_id s₁ L₁ hm.inv

theorem hal_init_tracks (h : Inv s L) (name : CStr) :
    Mirrors (hal_init R (some name)) (Catalog.hal_init name) s (.of s L) fun a b s' c' =>
      b = a ∧ a = (inits R s L name).1 ∧ ∃ L', Moved s L (inits R s L name).2 s' L' ∧
        c' = .of s' L' := by
  refine .guess (b := (R.init (rtapi_name name) s.rt).1) trivial
    (.guess (h.alloc (k := .comp) (keys_tab ..)) (.guess (b := s.shm.comp (s.shm.arena.alloc .comp).1) trivial ?_))
  refine .of_returns (hal_init_spec R h name) fun r s' ⟨hr, ⟨L', hm⟩, _⟩ => ?_
  exact ⟨r, _, ⟨hr, hm.catalog⟩, rfl, hr, L', hm, rfl⟩

/-- What a thread that was made has in common with the arguments. -/
theorem make_task_made {base : Addr} {module : Int} {new : Nat} {th th' : Thread} {rt : σ}
    (h : (make_task R base module new th rt).made = .ok th') :
    th'.name = th.name ∧ th'.uses_fp = th.uses_fp ∧ th'.period = th.period ∧
      th'.priority = th.priority := by
  simp only [make_task] at h
  split_ifs at h
  cases h
  exact ⟨rfl, rfl, rfl, rfl⟩

theorem make_thread_made {g : Registry} {base : Addr} {module : Int} {new : Nat} {old th : Thread}
    {name : CStr} (hn : ¬ name.length > HAL_NAME_LEN) {period_nsec : Nat} {uses_fp priority : Int}
    {rt : σ}
    (h : (make_thread R g base module new old name period_nsec uses_fp priority rt).made = .ok th) :
    th.name = name ∧ th.uses_fp = uses_fp ∧ th.period = toInt64 period_nsec ∧
      th.priority = priority := by
  simp only [make_thread, rt_snprintf_short hn] at h
  split_ifs at h
  · simpa only using make_task_made h
  · simpa only using make_task_made h

/-- RTAPI refuses, when nothing else does. -/
theorem make_thread_refused {g : Registry} {base : Addr} {module : Int} {new : Nat} {old : Thread}
    {name : CStr} {period_nsec : Nat} {uses_fp priority : Int} {rt : σ} {e : Int}
    (hfree : ¬ ∃ t ∈ g.threads, t.thread.name = name) (hnew : new ≠ 0)
    (h : (make_thread R g base module new old name period_nsec uses_fp priority rt).made = .error e) :
    e = -EINVAL := by
  simp only [make_thread, if_neg hfree, if_neg hnew] at h
  split_ifs at h
  · exact make_task_error R h
  · exact (Except.error.inj h).symm
  · exact make_task_error R h

theorem hal_set_constructor_tracks (comp_id : Int) (make : Addr) :
    Tracks (σ := σ) (hal_set_constructor comp_id make)
      (Catalog.hal_set_constructor comp_id make) := fun _ _ h =>
  mirrors_refines (hal_set_constructor_refines h comp_id make)

theorem hal_ready_tracks (comp_id : Int) :
    Tracks (σ := σ) (hal_ready comp_id) (Catalog.hal_ready comp_id) := fun _ _ h =>
  mirrors_refines (hal_ready_refines h comp_id)

theorem hal_unready_tracks (comp_id : Int) :
    Tracks (σ := σ) (hal_unready comp_id) (Catalog.hal_unready comp_id) := fun _ _ h =>
  mirrors_refines (hal_unready_refines h comp_id)

theorem hal_set_unready_tracks (comp_id : Int) :
    Tracks (σ := σ) (hal_set_unready comp_id) (Catalog.hal_set_unready comp_id) := fun _ _ h =>
  mirrors_refines (hal_set_unready_refines h comp_id)

/-- Registering leaves the segment where it is. -/
theorem Catalog.hal_param_new_base {name : CStr} {type : HalType} {dir : ParamDir} {data_addr : Addr}
    {comp_id r : Int} {c c' : Catalog}
    (h : Catalog.hal_param_new name type dir data_addr comp_id c r c') : c'.base = c.base := by
  obtain ⟨_, _, ⟨-, rfl⟩, -, rfl⟩ := h
  rfl

theorem create_thread_comp_tracks (h : Inv s L) {new : Nat} (ht : new ∈ L.act .thread) {th : Thread}
    (hth : s.shm.thread new = th) :
    Mirrors (create_thread_comp R new) (Catalog.create_thread_comp new th) s (.of s L) Done := by
  unfold create_thread_comp Catalog.create_thread_comp
  refine .behind (wp_get.mpr (.get ?_))
  rw [hth]
  refine .bind ((hal_init_tracks h _).mono fun _ comp_id s₁ _ hpost => ?_)
  obtain ⟨rfl, -, L₁, h₁, rfl⟩ := hpost
  -- the thread is still there, with its record
  have hthreads : (view s₁.shm L₁).threads = (view s.shm L).threads := by
    rw [h₁.events]
    exact Registry.init_threads
  obtain ⟨-, hsame⟩ := thread_of_view hthreads ht
  rw [hth] at hsame
  set th₂ : Thread := { th with comp_id := comp_id } with hth₂
  obtain ⟨hg₂, hv₂⟩ := h₁.inv.good.setThread new (show th₂.name = (s₁.shm.thread new).name by
    rw [hsame])
  have h₂ : Moved s₁ L₁ [.setThread new th₂] { s₁ with shm := s₁.shm.setThread new th₂ } L₁ :=
    ⟨{ h₁.inv with good := hg₂ }, hv₂, rfl, rfl, rfl, rfl⟩
  refine .behind ?_
  show Mirrors _ _ { s₁ with shm := s₁.shm.setThread new { s₁.shm.thread new with
    comp_id := comp_id } }
    _ _
  rw [hsame, ← hth₂]
  refine .ahead (b := ()) h₂.catalog ?_
  refine .ite Iff.rfl (fun _ => .pure ⟨rfl, L₁, h₂.inv, rfl⟩) fun _ => ?_
  refine mirrors_setData (.bind ?_)
  have h₃ := h₂.inv.setData (s.hal_shmem_base + (new + THREAD_MAXTIME)) 0
  refine (hal_param_new_tracks _ _ _ _ _ _ _ h₃).with_spec.mono fun r₄ _ s₄ _ hpost => ?_
  obtain ⟨hspec, rfl, L₄, h₄, rfl⟩ := hpost
  have hbase : s₄.hal_shmem_base = s.hal_shmem_base := (Catalog.hal_param_new_base hspec).trans h₁.base
  refine .ite Iff.rfl (fun _ => .pure ⟨rfl, L₄, h₄, rfl⟩) fun _ => ?_
  refine .bind ((hal_pin_newf_tracks h₄ .s32 _ comp_id _).mono fun r₅ _ s₅ _ hpost => ?_)
  obtain ⟨⟨rfl, L₅, h₅, rfl⟩, hcell⟩ := hpost
  refine .ite Iff.rfl (fun _ => .pure ⟨rfl, L₅, h₅, rfl⟩) fun hr => ?_
  have hcell' : s₅.shm.cell (new + THREAD_RUNTIME) ≠ 0 := by
    have := hcell (Decidable.not_not.mp hr)
    rwa [hbase, Nat.add_sub_cancel_left] at this
  refine .behind (Returns.to_wp ((returns_storeThrough hcell').mpr (.bind ?_)))
  have h₆ := h₅.setData (s₅.shm.cell (new + THREAD_RUNTIME)) 0
  refine (hal_ready_tracks comp_id _ _ h₆).mono fun _ _ s₇ _ hpost => ?_
  obtain ⟨-, L₇, h₇, rfl⟩ := hpost
  exact .pure ⟨rfl, L₇, h₇, rfl⟩

theorem hal_create_thread_tracks (name : CStr) (period_nsec : Nat) (uses_fp priority : Int) :
    Tracks (hal_create_thread R name period_nsec uses_fp priority)
      (Catalog.hal_create_thread name period_nsec uses_fp priority) := fun s L h => by
  have done : ∀ r, Mirrors (pure r : Prog σ Int) (pure r) s (.of s L) Done :=
    fun r => .pure ⟨rfl, L, h, rfl⟩
  unfold hal_create_thread Catalog.hal_create_thread
  refine .behind (wp_get.mpr (.get ?_))
  rw [if_neg h.attached]
  refine .ite Iff.rfl (fun _ => done _) fun hp => ?_
  refine .ite Iff.rfl (fun _ => done _) fun hn => ?_
  refine .ite Iff.rfl (fun _ => done _) fun hl => ?_
  refine .behind ((create_thread_task_spec R h hn period_nsec uses_fp priority rfl).to_wp.mono
    (fun made s₁ hpost => ?_) fun _ _ => id)
  obtain ⟨hmade, ⟨L₁, hm⟩, -⟩ := hpost
  set p := make_thread R (view s.shm L) s.hal_shmem_base s.lib_module_id
    (s.shm.arena.alloc .thread).1 (s.shm.thread (s.shm.arena.alloc .thread).1) name period_nsec
    uses_fp priority s.rt with hpdef
  rcases hth : p.made with e | th
  · -- an error is returned, and the catalog is that of before
    have hbefore : Catalog.of s₁ L₁ = .of s L := by
      rw [hm.catalog, Making.events, hth]
      rfl
    have refused : ∀ y : Spec Catalog Int, y = pure e →
        Mirrors (pure e : Prog σ Int) y s₁ (.of s L) Done := fun y hy => by
      rw [hy]
      exact .pure ⟨rfl, L₁, hm.inv, hbefore.symm⟩
    rw [hmade, hth]
    rw [hpdef] at hth
    by_cases hdup : ∃ t ∈ (view s.shm L).threads, t.thread.name = name
    · rw [make_thread, if_pos hdup] at hth
      cases hth
      exact refused _ (if_pos hdup)
    refine (if_neg hdup).symm ▸ .guess (h.alloc (k := .thread) view_offs) ?_
    by_cases hnew : (s.shm.arena.alloc .thread).1 = 0
    · rw [make_thread, if_neg hdup, if_pos hnew] at hth
      cases hth
      exact refused _ (if_pos hnew)
    obtain rfl := make_thread_refused hdup hnew hth
    rw [if_neg hnew]
    exact .guess (b := none) (by simp) (refused _ rfl)
  · have hdup : ¬ ∃ t ∈ (view s.shm L).threads, t.thread.name = name := fun hdup => by
      rw [hpdef, make_thread, if_pos hdup] at hth
      cases hth
    have hnew : (s.shm.arena.alloc .thread).1 ≠ 0 := fun hnew => by
      rw [hpdef, make_thread, if_neg hdup, if_pos hnew] at hth
      cases hth
    rw [Making.events, hth] at hm
    rw [hmade, hth]
    obtain ⟨hu, hrec⟩ := hm.added
    refine (if_neg hdup).symm ▸ .guess (h.alloc (k := .thread) view_offs) ?_
    rw [if_neg hnew]
    refine .guess (b := some th) (fun th' e => ?_) ?_
    · cases e
      exact make_thread_made hn (hpdef ▸ hth)
    · refine .ahead (b := ()) hm.catalog ?_
      exact create_thread_comp_tracks hm.inv hu hrec

theorem hal_exit_tracks (comp_id : Int) :
    Tracks (hal_exit R comp_id) (Catalog.hal_exit comp_id) := fun _ _ h =>
  (mirrors_perform (P := fun _ _ => True) ((hal_exit_spec R h comp_id).mono
    fun _ _ ⟨hr, hm, _⟩ => ⟨hr, hm, trivial⟩)).mono fun _ _ _ _ => And.left

theorem hal_malloc_tracks {size : Int} (h₀ : 0 ≤ size) :
    Tracks (σ := σ) (hal_malloc size) (.guess fun _ _ => True) := fun s L h => by
  refine .of_returns (hal_malloc_spec h size) fun r s' ⟨_, hs⟩ => ?_
  obtain rfl := hs
  have hm := Moved.grow h (serve_span (r := .up size) h.good.shape.mem.span h₀)
  exact ⟨r, _, ⟨trivial, rfl⟩, rfl, L, hm.inv, hm.catalog.symm⟩

theorem hal_comp_name_tracks (comp_id : Int) :
    Tracks (σ := σ) (hal_comp_name comp_id) (Catalog.hal_comp_name comp_id) := fun s L h => by
  refine .of_returns (hal_comp_name_spec h comp_id) fun r s' ⟨hr, hs⟩ => ?_
  obtain rfl := hs
  exact ⟨r, _, ⟨hr, rfl⟩, rfl, L, h.looked, rfl⟩

theorem hal_get_stats_tracks (stats : Bool) :
    Tracks (σ := σ) (hal_get_stats stats) (Catalog.hal_get_stats stats) := fun s L h => by
  refine .of_returns (hal_get_stats_spec h stats) fun r s' hs => ?_
  rcases hs with ⟨rfl, hr, rfl⟩ | ⟨rfl, rfl, hr⟩
  · exact ⟨r, _, ⟨hr, rfl⟩, rfl, L, h, rfl⟩
  · exact ⟨r, _, ⟨⟨_, hr, rfl, rfl, rfl, rfl, rfl, rfl⟩, rfl⟩, rfl, L, h.looked, rfl⟩

theorem hal_thread_delete_tracks (name : CStr) :
    Tracks (hal_thread_delete R name) (Catalog.hal_thread_delete name) := fun s L h => by
  refine .get ?_
  refine .of_wp (hal_thread_delete_spec R h name) fun r s' ⟨spec, hspec, hr, L', hm⟩ => ?_
  have hdelete : (Catalog.of s L).reg.delete (Catalog.of s L).lock (Catalog.of s L).state name =
      some spec := hspec
  rw [hdelete]
  exact ⟨r, _, ⟨hr, hm.catalog⟩, rfl, L', hm.inv, rfl⟩

theorem hal_add_funct_tracks (funct_name thread_name : Option CStr) (position : Int) :
    Tracks (σ := σ) (hal_add_funct_to_thread funct_name thread_name position)
      (Catalog.hal_add_funct_to_thread funct_name thread_name position) := fun s _ h =>
  .guess (b := (s.shm.arena.alloc_entry.map Prod.fst).getD 0) trivial
    ((mirrors_perform (P := fun _ _ => True)
      ((hal_add_funct_spec h funct_name thread_name position rfl).mono
        (fun _ _ ⟨_, hr, L', hm, _⟩ => ⟨hr, ⟨L', hm⟩, trivial⟩) fun _ _ => id)).mono
      fun _ _ _ _ => And.left)

theorem hal_del_funct_tracks (funct_name thread_name : Option CStr) :
    Tracks (σ := σ) (hal_del_funct_from_thread funct_name thread_name)
      (Catalog.hal_del_funct_from_thread funct_name thread_name) := fun _ _ h =>
  mirrors_refines (hal_del_funct_refines h funct_name thread_name)

theorem hal_set_lock_tracks (lock_type : UInt8) :
    Tracks (σ := σ) (hal_set_lock lock_type) (Catalog.hal_set_lock lock_type) := fun s L h => by
  unfold hal_set_lock Catalog.hal_set_lock
  refine .behind (wp_get.mpr ?_)
  rw [if_neg h.attached]
  refine mirrors_change (.ahead (b := ()) rfl (.pure ⟨rfl, L, ?_, rfl⟩))
  exact h.flags lock_type s.shm.state s.shm.threads_running

theorem hal_start_threads_tracks :
    Tracks (σ := σ) hal_start_threads Catalog.hal_start_threads := fun s L h => by
  have done : ∀ r, Mirrors (pure r : Prog σ Int) (pure r) s (.of s L) Done :=
    fun r => .pure ⟨rfl, L, h, rfl⟩
  unfold hal_start_threads Catalog.hal_start_threads
  refine .behind (wp_get.mpr (.get ?_))
  rw [if_neg h.attached]
  refine .ite Iff.rfl (fun _ => done _) fun _ => ?_
  refine .ite Iff.rfl (fun _ => done _) fun _ => ?_
  refine .ite Iff.rfl (fun _ => done _) fun _ => ?_
  refine mirrors_change (.ahead (b := ()) rfl (.pure ⟨rfl, L, ?_, rfl⟩))
  exact h.flags s.shm.lock .running 1

theorem hal_stop_threads_tracks :
    Tracks (σ := σ) hal_stop_threads Catalog.hal_stop_threads := fun s L h => by
  have done : ∀ r, Mirrors (pure r : Prog σ Int) (pure r) s (.of s L) Done :=
    fun r => .pure ⟨rfl, L, h, rfl⟩
  unfold hal_stop_threads Catalog.hal_stop_threads
  refine .behind (wp_get.mpr (.get ?_))
  rw [if_neg h.attached]
  refine .ite Iff.rfl (fun _ => done _) fun _ => ?_
  refine .ite Iff.rfl (fun _ => done _) fun _ => ?_
  refine .ite Iff.rfl (fun _ => done _) fun _ => ?_
  refine mirrors_change (.ahead (b := ()) rfl (.pure ⟨rfl, L, ?_, rfl⟩))
  exact h.flags s.shm.lock .active 0

theorem hal_get_lock_tracks :
    Tracks (σ := σ) hal_get_lock (Catalog.lock <$> Spec.get) := fun s L h => by
  unfold hal_get_lock
  refine .behind (wp_get.mpr ?_)
  rw [if_neg h.attached]
  exact .get (.pure ⟨rfl, L, h, rfl⟩)

theorem hal_get_state_tracks :
    Tracks (σ := σ) hal_get_state (Catalog.state <$> Spec.get) := fun s L h => by
  unfold hal_get_state
  refine .behind (wp_get.mpr ?_)
  rw [if_neg h.attached]
  exact .get (.pure ⟨rfl, L, h, rfl⟩)

theorem hal_app_teardown_tracks :
    Tracks (hal_app_teardown R) Catalog.teardown := fun s L h => by
  refine .of_returns (hal_app_teardown_moved R h) fun _ s' ⟨L', hm, _⟩ => ?_
  refine ⟨(), .of s' L', ?_, rfl, L', hm.inv, rfl⟩
  refine hm.catalog.trans ?_
  have hoffs : (view s.shm L).threads.map (fun t => Event.dropThread t.off) =
      (L.act .thread).map .dropThread := by
    simp [view, Function.comp_def]
  rw [← hoffs]
  rfl

/-- **One operation.** -/
theorem Op.tracks (op : Op) (hsane : op.Sane) : Tracks (op.reply R) op.catalog := by
  cases op with
  | hal_init name =>
      rcases name with _ | name
      · exact fun s L h => .pure ⟨rfl, L, h, rfl⟩
      · exact Tracks.map (fun s L h => (hal_init_tracks h name).mono
          fun _ _ _ _ ⟨e, _, L', hm, hc⟩ => ⟨e, L', hm.inv, hc⟩) _
  | hal_exit comp_id => exact (hal_exit_tracks comp_id).map _
  | hal_malloc size => exact (hal_malloc_tracks hsane).map _
  | hal_set_constructor comp_id make => exact (hal_set_constructor_tracks comp_id make).map _
  | hal_ready comp_id => exact (hal_ready_tracks comp_id).map _
  | hal_unready comp_id => exact (hal_unready_tracks comp_id).map _
  | hal_set_unready comp_id => exact (hal_set_unready_tracks comp_id).map _
  | hal_comp_name comp_id => exact (hal_comp_name_tracks comp_id).map _
  | hal_export_funct name funct arg uses_fp reentrant comp_id =>
      exact (hal_export_funct_tracks name funct arg uses_fp reentrant comp_id).map _
  | hal_create_thread name period_nsec uses_fp priority =>
      exact (hal_create_thread_tracks name period_nsec uses_fp priority).map _
  | hal_thread_delete name => exact (hal_thread_delete_tracks name).map _
  | hal_add_funct_to_thread funct_name thread_name position =>
      exact (hal_add_funct_tracks funct_name thread_name position).map _
  | hal_del_funct_from_thread funct_name thread_name =>
      exact (hal_del_funct_tracks funct_name thread_name).map _
  | hal_param_new name type dir data_addr comp_id =>
      exact (hal_param_new_tracks name type dir data_addr comp_id).map _
  | hal_pin_new name type data_ptr_addr comp_id =>
      exact (hal_pin_new_tracks name type data_ptr_addr comp_id).map _
  | hal_get_stats stats => exact (hal_get_stats_tracks stats).map _
  | hal_set_lock lock_type => exact (hal_set_lock_tracks lock_type).map _
  | hal_get_lock => exact hal_get_lock_tracks.map _
  | hal_start_threads => exact hal_start_threads_tracks.map _
  | hal_stop_threads => exact hal_stop_threads_tracks.map _
  | hal_get_state => exact hal_get_state_tracks.map _
  | teardown => exact hal_app_teardown_tracks.map _

/-! ### Runs -/

variable (R) in
/-- A run of HAL, with the operations and what they returned, newest first; cycles of the threads
come between them. -/
inductive Answered (s₀ : State σ) : List (Op × Reply) → State σ → Prop
  | start : Answered s₀ [] s₀
  | op {s s' : State σ} {rs : List (Op × Reply)} {op : Op} {r : Reply} : Answered s₀ rs s →
      op.Sane → op.reply R s = .ok r s' → Answered s₀ ((op, r) :: rs) s'
  | cycle {s s' : State σ} {rs : List (Op × Reply)}
      (code : Addr → Addr → Int → (Addr → Int) → (Addr → Int)) (thread : Nat) :
      Answered s₀ rs s → s.shm.Listed .thread thread →
      thread_task_cycle R code thread s = .ok () s' → Answered s₀ rs s'

/-- A run of the catalog. -/
inductive Catalog.Answered (c₀ : Catalog) : List (Op × Reply) → Catalog → Prop
  | start : Catalog.Answered c₀ [] c₀
  | op {c c' : Catalog} {rs : List (Op × Reply)} {op : Op} {r : Reply} :
      Catalog.Answered c₀ rs c → op.catalog c r c' → Catalog.Answered c₀ ((op, r) :: rs) c'

variable {s₀ s₁ : State σ} {rs : List (Op × Reply)} {c₀ : Catalog}

/-- Every run can be written down. -/
theorem Runs.answered {allowed : State σ → Op → Prop} (h : Runs R allowed s₀ s) :
    ∃ rs, Answered R s₀ rs s := by
  induction h with
  | start => exact ⟨[], .start⟩
  | @op s s' op _ hsane _ hrun ih =>
      obtain ⟨rs, ih⟩ := ih
      rw [op.run_reply] at hrun
      obtain ⟨r, s₁, hr, e⟩ := bind_eq_ok.mp hrun
      cases e
      exact ⟨_, ih.op hsane hr⟩
  | cycle code t _ ht hrun ih =>
      obtain ⟨rs, ih⟩ := ih
      exact ⟨rs, ih.cycle code t ht hrun⟩

theorem Answered.tracks (h : Answered R s₁ rs s) (hc : c₀ = .of s₁ L) (hinv : Inv s₁ L) :
    ∃ L', Inv s L' ∧ c₀.Answered rs (.of s L') := by
  induction h with
  | start => exact ⟨L, hinv, hc ▸ .start⟩
  | @op s s' rs op r _ hsane hrun ih =>
      obtain ⟨L', h', ih⟩ := ih
      obtain ⟨_, _, hstep, rfl, L'', h'', rfl⟩ := (op.tracks hsane s L' h').of_ok hrun
      exact ⟨L'', h'', ih.op hstep⟩
  | cycle code t _ ht hrun ih =>
      obtain ⟨L', h', ih⟩ := ih
      obtain ⟨cs, data, rt, rfl⟩ := cycle_ran h' (h'.good.shape.listed.mp ht) hrun
      exact ⟨L', h'.ran cs data rt, ih⟩

/-- HAL comes up with nothing registered. -/
theorem Boots.catalog (h : Boots R s₀ s₁) :
    Catalog.empty s₁.hal_shmem_base = .of s₁ .empty := by
  obtain ⟨_, _, hup⟩ := h.up_spec
  simp only [Catalog.empty, Catalog.of, hup.lock, hup.state]
  rfl

theorem Inv.shows (h : Inv s L) : Shows s (.of s L) := ⟨h.good.shape.holds, rfl, rfl, rfl⟩

/-- **HAL serves as the catalog does.** -/
theorem served_catalog (hb : Boots R s₀ s₁) (h : Answered R s₁ rs s) :
    ∃ c, (Catalog.empty s₁.hal_shmem_base).Answered rs c ∧ Shows s c := by
  obtain ⟨L, hinv, hs⟩ := h.tracks hb.catalog hb.inv
  exact ⟨_, hs, hinv.shows⟩

/-- A component, and its function `f`. -/
def init_c : Op := .hal_init (some (lit ['c']))

def export_f : Op := .hal_export_funct (lit ['f']) 8 16 0 1 2

/-- The state after both. -/
def exported : State Machine :=
  after (export_f.reply (rtapi serving)) (after (init_c.reply (rtapi serving)) started)

theorem exported_answered :
    Answered (rtapi serving) started [(export_f, .code 0), (init_c, .code 2)] exported := by
  have hinit : Answered (rtapi serving) started [(init_c, .code 2)]
      (after (init_c.reply (rtapi serving)) started) :=
    .op .start (show init_c.Sane from trivial) (result_eq (by decide +kernel))
  exact .op hinit (show export_f.Sane from trivial) (result_eq (by decide +kernel))

theorem exported_catalog : ∃ c, (Catalog.empty started.hal_shmem_base).Answered
    [(export_f, .code 0), (init_c, .code 2)] c ∧ Shows exported c :=
  served_catalog started_starts.boots exported_answered

end RTS.Hal

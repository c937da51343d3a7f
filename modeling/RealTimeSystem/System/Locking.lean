import RealTimeSystem.System.Undoing

/-!
# System — what the lock levels stop

Every operation tests the lock word, if at all, once and at its top.  `HAL_LOCK_CONFIG` is tested by
all that change threads or schedules.  `HAL_LOCK_LOAD` is not tested by `hal_init`, so a component
still comes, also from inside `hal_create_thread`; and `HAL_LOCK_RUN` is tested by the two that
start and stop the threads, but not by those that stop them on the way, `hal_thread_delete` and the
roll-back of `hal_create_thread`.  `Permitted` leaves these out.  `hal_app_main`, called once more,
tests no level and clears them all; `Heeds` lets it come only where none is set.

**`locks_enforced`**: through every run of calls that heed them the levels hold.
-/

namespace RTS.Hal

open RTS.Support RTS.Uspace

variable {σ : Type} {R : Rtapi σ} {s s' s'' s₀ : State σ} {L L' : Lists}

/-! ### Events under a lock -/

/-- The event adds to a table that `HAL_LOCK_LOAD` closes. -/
def Event.Loads : Event → Prop
  | .addComp .. => True
  | .addFunct .. => True
  | .addPin .. => True
  | .addParam .. => True
  | _ => False

/-- The event changes the threads, or mounts a function. -/
def Event.Configures : Event → Prop
  | .addThread .. => True
  | .setThread .. => True
  | .dropThread .. => True
  | .schedule .. => True
  | _ => False

/-- The events respect the lock. -/
structure Lawful (lock : UInt8) (evs : List Event) : Prop where
  load : lock &&& HAL_LOCK_LOAD ≠ 0 → ∀ ev ∈ evs, ¬ ev.Loads
  config : lock &&& HAL_LOCK_CONFIG ≠ 0 → ∀ ev ∈ evs, ¬ ev.Configures

namespace Lawful

variable {lock : UInt8} {evs : List Event}

theorem nil : Lawful lock [] := ⟨fun _ _ h => absurd h List.not_mem_nil, fun _ _ h =>
  absurd h List.not_mem_nil⟩

/-- Events that no lock is about. -/
theorem of_free (h : ∀ ev ∈ evs, ¬ ev.Loads ∧ ¬ ev.Configures) : Lawful lock evs :=
  ⟨fun _ ev hev => (h ev hev).1, fun _ ev hev => (h ev hev).2⟩

/-- What registers something of a component comes with `HAL_LOCK_LOAD` off. -/
theorem of_for (hl : lock &&& HAL_LOCK_LOAD = 0) (h : ∀ ev ∈ evs, ∃ c, ev.For c) :
    Lawful lock evs where
  load hon := absurd hl hon
  config _ ev hev := by
    obtain ⟨c, hc⟩ := h ev hev
    cases ev <;> simp only [Event.For] at hc <;> exact id

end Lawful

/-! ### Registries -/

/-- The components, functions, pins and parameters of `g'` are all in `g`. -/
structure Registry.NoMore (g g' : Registry) : Prop where
  comps : List.Sublist (keys g'.comps) (keys g.comps)
  functs : List.Sublist (keys g'.functs) (keys g.functs)
  pins : List.Sublist (keys g'.pins) (keys g.pins)
  params : List.Sublist (keys g'.params) (keys g.params)

/-- The same thread, with no function more. -/
def Slot.Fewer (t t' : Slot) : Prop :=
  t'.off = t.off ∧ t'.thread = t.thread ∧ List.Sublist t'.entries t.entries

/-- The same threads in the same order, none with a function more. -/
def Registry.NoMounted (g g' : Registry) : Prop := List.Forall₂ Slot.Fewer g.threads g'.threads

theorem Slot.Fewer.refl (t : Slot) : t.Fewer t := ⟨rfl, rfl, List.Sublist.refl _⟩

theorem Slot.Fewer.trans {t t' t'' : Slot} (h : t.Fewer t') (h' : t'.Fewer t'') : t.Fewer t'' :=
  ⟨h'.1.trans h.1, h'.2.1.trans h.2.1, h'.2.2.trans h.2.2⟩

namespace Registry

variable {g g' g'' : Registry} {evs : List Event} {ev : Event}

theorem NoMore.refl (g : Registry) : g.NoMore g :=
  ⟨List.Sublist.refl _, List.Sublist.refl _, List.Sublist.refl _, List.Sublist.refl _⟩

theorem NoMore.trans (h : g.NoMore g') (h' : g'.NoMore g'') : g.NoMore g'' :=
  ⟨h'.comps.trans h.comps, h'.functs.trans h.functs, h'.pins.trans h.pins,
    h'.params.trans h.params⟩

theorem NoMounted.refl (g : Registry) : g.NoMounted g :=
  List.forall₂_same.mpr fun t _ => .refl t

theorem NoMounted.trans (h : g.NoMounted g') (h' : g'.NoMounted g'') : g.NoMounted g'' := by
  unfold NoMounted at *
  generalize g.threads = ts, g'.threads = ts', g''.threads = ts'' at h h'
  induction h generalizing ts'' with
  | nil => exact h'
  | cons hd _ ih =>
      rcases h' with _ | ⟨hd', htl'⟩
      exact .cons (hd.trans hd') (ih _ htl')

/-- Thread by thread. -/
theorem noMounted_map {f : Slot → Slot} (h : g'.threads = g.threads.map f)
    (hf : ∀ t ∈ g.threads, t.Fewer (f t)) : g.NoMounted g' := by
  unfold NoMounted
  rw [h, List.forall₂_map_right_iff]
  exact List.forall₂_same.mpr hf

theorem keys_filter {α : Type} (t : List (Nat × α)) (q : Nat × α → Bool) :
    List.Sublist (keys (t.filter q)) (keys t) := List.filter_sublist.map _

/-- An event that loads nothing. -/
theorem NoMore.apply (h : ¬ ev.Loads) : g.NoMore (g.apply ev) := by
  have hsame := NoMore.refl g
  cases ev with
  | addComp x c => exact absurd trivial h
  | addPin x p => exact absurd trivial h
  | addParam x p => exact absurd trivial h
  | addFunct x f => exact absurd trivial h
  | setComp x c =>
      refine { hsame with comps := ?_ }
      rw [show keys (g.apply (.setComp x c)).comps = keys g.comps from keys_map fun p _ => by
        by_cases hp : p.1 = x <;> simp [hp]]
  | dropComp x => exact { hsame with comps := keys_filter _ _ }
  | dropParam x => exact { hsame with params := keys_filter _ _ }
  | dropFunct x => exact { hsame with functs := keys_filter _ _ }
  | addThread t th => exact { hsame with }
  | setThread t th => exact { hsame with }
  | dropThread t =>
      refine { hsame with functs := ?_ }
      rw [show keys (g.apply (.dropThread t)).functs = keys g.functs from keys_map fun _ _ => rfl]
  | schedule t i e r =>
      refine { hsame with functs := ?_ }
      rw [show keys (g.apply (.schedule t i e r)).functs = keys g.functs from keys_map fun p _ => by
        by_cases hp : p.1 = r.funct_ptr <;> simp [hp]]
  | unschedule t e f =>
      refine { hsame with functs := ?_ }
      rw [show keys (g.apply (.unschedule t e f)).functs = keys g.functs from keys_map fun p _ => by
        by_cases hp : p.1 = f <;> simp [hp]]

/-- An event that configures nothing. -/
theorem NoMounted.apply (h : ¬ ev.Configures) : g.NoMounted (g.apply ev) := by
  have hsame := NoMounted.refl g
  cases ev with
  | addThread t th => exact absurd trivial h
  | setThread t th => exact absurd trivial h
  | dropThread t => exact absurd trivial h
  | schedule t i e r => exact absurd trivial h
  | dropFunct x =>
      exact noMounted_map rfl fun t _ => ⟨rfl, rfl, List.filter_sublist⟩
  | unschedule t e f =>
      refine noMounted_map rfl fun u _ => ?_
      by_cases hu : u.off = t
      · rw [if_pos hu]
        exact ⟨rfl, rfl, List.filter_sublist⟩
      · rw [if_neg hu]
        exact .refl u
  | _ => exact hsame

theorem NoMore.applyAll (h : ∀ ev ∈ evs, ¬ ev.Loads) : g.NoMore (g.applyAll evs) := by
  induction evs generalizing g with
  | nil => exact .refl g
  | cons ev evs ih =>
      exact .trans (.apply (h ev (by simp))) (ih fun ev' h' => h ev' (List.mem_cons_of_mem _ h'))

theorem NoMounted.applyAll (h : ∀ ev ∈ evs, ¬ ev.Configures) : g.NoMounted (g.applyAll evs) := by
  induction evs generalizing g with
  | nil => exact .refl g
  | cons ev evs ih =>
      exact .trans (.apply (h ev (by simp))) (ih fun ev' h' => h ev' (List.mem_cons_of_mem _ h'))

end Registry

/-! ### Where the lock is not asked -/

section
variable (R) (s)

/-- `hal_thread_delete` passes its tests and finds the thread. -/
def Unlists (name : CStr) : Prop :=
  s.shm.lock &&& HAL_LOCK_CONFIG = 0 ∧ (s.shm.state = .active ∨ s.shm.state = .running) ∧
    ∃ t, t ≠ 0 ∧ s.shm.halpr_find_thread_by_name name = some t

/-- The operation makes a component: its own, or that of a thread. -/
def Op.Founds : Op → Prop
  | .hal_init (some name) => Accepts R s name
  | .hal_create_thread name period_nsec uses_fp priority =>
      Makes s name period_nsec ∧ Employs R s period_nsec uses_fp priority ∧
        Hal.Founds R s.shm (s.shm.arena.alloc .thread).2
          (launched R s period_nsec uses_fp priority).2 name
  | _ => False

/-- The operation frees a thread: a listed one, or one it has just made. -/
def Op.Frees : Op → Prop
  | .hal_thread_delete name => Unlists s name
  | op => op.Undone R s

/-- The operations that the lock levels are about. -/
def Op.Ordinary : Op → Prop
  | .hal_set_lock _ => False
  | .teardown => False
  | _ => True

/-- An ordinary operation that makes no component under `HAL_LOCK_LOAD`, and frees no thread under
`HAL_LOCK_RUN` while the threads run. -/
structure Permitted (op : Op) : Prop where
  ordinary : op.Ordinary
  load : s.shm.lock &&& HAL_LOCK_LOAD ≠ 0 → ¬ op.Founds R s
  run : s.shm.lock &&& HAL_LOCK_RUN ≠ 0 → s.shm.threads_running ≠ 0 → ¬ op.Frees R s

end

/-! ### The registry after one operation -/

/-- The registry went through events that respect the lock, and the lock is the same. -/
structure Obeys (s : State σ) (L : Lists) (s' : State σ) (L' : Lists) : Prop where
  inv : Inv s' L'
  lock : s'.shm.lock = s.shm.lock
  lawful : ∃ evs, view s'.shm L' = (view s.shm L).applyAll evs ∧ Lawful s.shm.lock evs

namespace Obeys

theorem of_moved {evs : List Event} (hm : Moved s L evs s' L') (hl : Lawful s.shm.lock evs) :
    Obeys s L s' L' := ⟨hm.inv, hm.lock, evs, hm.events, hl⟩

theorem refl (h : Inv s L) : Obeys s L s L := of_moved (.refl h) .nil

/-- The state and the flag of the threads are outside the registry. -/
theorem flags (h : Inv s L) (state : HalState) (running : Int) :
    Obeys s L { s with shm := { s.shm with state := state, threads_running := running } } L :=
  ⟨h.flags s.shm.lock state running, rfl, [], rfl, .nil⟩

theorem looked (h : Inv s L) : Obeys s L (closed s { s.shm with mutex := true }) L :=
  ⟨h.looked, rfl, [], rfl, .nil⟩

theorem of_refines {r : Int} {spec : Int × List Event} (hr : Refines s L spec r s')
    (hl : Lawful s.shm.lock spec.2) : ∃ L', Obeys s L s' L' :=
  have ⟨_, L', hm, _⟩ := hr
  ⟨L', .of_moved hm hl⟩

/-- Operations that register something of a component, and refuse to under `HAL_LOCK_LOAD`. -/
theorem of_registering {r comp_id : Int} {spec : Int × List Event} (hr : Refines s L spec r s')
    (hfor : ∀ ev ∈ spec.2, (view s.shm L).Holder comp_id ev)
    (hrefused : s.shm.lock &&& HAL_LOCK_LOAD ≠ 0 → spec.2 = []) : ∃ L', Obeys s L s' L' := by
  refine of_refines hr ?_
  by_cases hl : s.shm.lock &&& HAL_LOCK_LOAD = 0
  · exact .of_for hl fun ev hev => have ⟨c, _, _, hc⟩ := hfor ev hev; ⟨c, hc⟩
  · rw [hrefused hl]
    exact .nil

/-- The operations on one component. -/
theorem of_set {r comp_id : Int} {f : Comp → Option Comp}
    (hr : Refines s L ((view s.shm L).set comp_id f) r s') : ∃ L', Obeys s L s' L' := by
  refine of_refines hr (.of_free fun ev hev => ?_)
  unfold Registry.set at hev
  split at hev
  · exact absurd hev List.not_mem_nil
  · rename_i x c _
    rcases hf : f c with _ | c' <;> rw [hf] at hev
    · exact absurd hev List.not_mem_nil
    · obtain rfl := List.mem_singleton.mp hev
      exact ⟨id, id⟩

/-- The result of an operation is ignored. -/
theorem ignored {α : Type} {x : Prog σ α} (h : Returns x s fun _ s' => ∃ L', Obeys s L s' L')
    (hrun : (do let _ ← x : Prog σ Unit) s = .ok () s') : ∃ L', Obeys s L s' L' :=
  Returns.of_ignored h hrun

end Obeys

theorem Lawful.exit (lock : UInt8) (g : Registry) (state : HalState) (comp_id : Int) :
    Lawful lock (g.exit state comp_id).2 := by
  unfold Registry.exit
  split_ifs
  · exact .nil
  rcases g.findComp comp_id with _ | ⟨x, c⟩
  · exact .nil
  · refine .of_free fun ev hev => ?_
    rcases leave_cases hev with ⟨y, rfl⟩ | ⟨y, rfl⟩ | rfl <;> exact ⟨id, id⟩

theorem Lawful.delete {lock : UInt8} {g : Registry} {state : HalState} {name : CStr}
    {spec : Int × List Event} (h : g.delete lock state name = some spec) : Lawful lock spec.2 := by
  unfold Registry.delete at h
  split_ifs at h with hl hst
  · cases h
    exact .nil
  · cases h
    exact .nil
  split at h
  · cases h
    exact .nil
  · split_ifs at h
    cases h
    exact ⟨fun _ ev hev => by cases List.mem_singleton.mp hev; exact id,
      fun hon => absurd hon hl⟩

theorem Lawful.add_funct (lock : UInt8) (g : Registry) (new : Nat)
    (funct_name thread_name : Option CStr) (p : Int) :
    Lawful lock (g.add_funct lock new funct_name thread_name p).2 := by
  unfold Registry.add_funct
  split_ifs with hl
  · exact .nil
  split
  swap
  · exact .nil
  split_ifs
  · exact .nil
  · exact .nil
  split
  · exact .nil
  · exact ⟨fun _ ev hev => by cases List.mem_singleton.mp hev; exact id, fun hon => absurd hon hl⟩

theorem Lawful.del_funct (lock : UInt8) (g : Registry) (funct_name thread_name : Option CStr) :
    Lawful lock (g.del_funct lock funct_name thread_name).2 := by
  unfold Registry.del_funct
  split_ifs
  · exact .nil
  split
  swap
  · exact .nil
  split
  · exact .nil
  · exact .of_free fun ev hev => by cases List.mem_singleton.mp hev; exact ⟨id, id⟩

/-- `hal_init` asks for no lock. -/
theorem hal_init_obeys (h : Inv s L) (name : CStr)
    (hl : s.shm.lock &&& HAL_LOCK_LOAD ≠ 0 → ¬ Accepts R s name) :
    Returns (hal_init R (some name)) s fun _ s' => ∃ L', Obeys s L s' L' := by
  refine (hal_init_spec R h name).mono fun r s' ⟨_, ⟨L', hm⟩, _⟩ => ⟨L', ?_⟩
  rcases inits_cases (R := R) h name with ⟨-, -, hevs⟩ | ⟨hacc, -, x, c, hevs, -⟩
  · exact .of_moved hm (hevs ▸ .nil)
  · refine .of_moved hm (hevs ▸ ⟨fun hon => absurd hacc (hl hon), fun _ ev hev => ?_⟩)
    cases List.mem_singleton.mp hev
    exact id

/-- `hal_export_funct` refuses under `HAL_LOCK_LOAD`. -/
theorem hal_export_funct_obeys (h : Inv s L) (name : CStr) (funct arg : Addr)
    (uses_fp reentrant comp_id : Int) :
    Returns (hal_export_funct name funct arg uses_fp reentrant comp_id) s fun _ s' =>
      ∃ L', Obeys s L s' L' := by
  by_cases hl : s.shm.lock &&& HAL_LOCK_LOAD = 0
  · refine (hal_export_funct_enrolled h name funct arg uses_fp reentrant comp_id).mono
      fun _ s' ⟨evs, L', he⟩ => ⟨L', .of_moved he.moved (.of_for hl fun ev hev => ?_)⟩
    obtain ⟨c, _, _, hc⟩ := he.held ev hev
    exact ⟨c, hc⟩
  · refine (hal_export_funct_exported h name funct arg uses_fp reentrant comp_id).mono
      fun _ s' he => ?_
    cases he with
    | refused _ _ hm => exact ⟨_, .of_moved hm .nil⟩
    | unpinned hp _ _ _ => exact absurd hp.unlocked hl
    | done hp _ _ _ _ _ _ _ _ _ => exact absurd hp.unlocked hl

/-- `hal_create_thread` asks for `HAL_LOCK_CONFIG` only. -/
theorem hal_create_thread_obeys (h : Inv s L) (name : CStr) (period_nsec : Nat)
    (uses_fp priority : Int)
    (hl : s.shm.lock &&& HAL_LOCK_LOAD ≠ 0 →
      ¬ Op.Founds R s (.hal_create_thread name period_nsec uses_fp priority)) :
    Returns (hal_create_thread R name period_nsec uses_fp priority) s fun _ s' =>
      ∃ L', Obeys s L s' L' := by
  by_cases hload : s.shm.lock &&& HAL_LOCK_LOAD = 0
  · refine (hal_create_thread_spec R name period_nsec uses_fp priority h).mono
      fun _ s' ⟨L', hc⟩ => ⟨L', ?_⟩
    cases hc with
    | refused _ => exact .refl h
    | undone _ _ hm _ => exact .of_moved hm .nil
    | done ha _ _ hm _ ho =>
        obtain ⟨evs, hm'⟩ := ho.moved
        exact .of_moved (hm.trans hm') ⟨fun hon => absurd hload hon, fun hon => absurd hon ha.2.2⟩
  · refine (hal_create_thread_creates R h).mono fun _ s' hc => ?_
    cases hc with
    | refused _ _ hm _ => exact ⟨_, .of_moved hm .nil⟩
    | undone _ _ _ hm _ => exact ⟨_, .of_moved hm .nil⟩
    | done hmakes hemp _ _ _ hnot =>
        obtain ⟨L', t, th, th', hm⟩ := hnot fun hf => hl hload ⟨hmakes, hemp, hf⟩
        refine ⟨L', .of_moved hm ⟨fun _ ev hev => ?_, fun hon => absurd hon hmakes.admits.2.2⟩⟩
        rcases List.mem_pair.mp hev with rfl | rfl <;> exact id

/-- **One permitted operation respects the lock.** -/
theorem Op.obeys {op : Op} (h : Inv s L) (hsane : op.Sane) (hop : Permitted R s op)
    (hrun : op.run R s = .ok () s') : ∃ L', Obeys s L s' L' := by
  have hkept := Obeys.refl h
  cases op with
  | hal_init name =>
      rcases name with _ | name
      · exact Obeys.ignored ((hal_init_none R s).mpr ⟨L, hkept⟩) hrun
      · exact Obeys.ignored (hal_init_obeys h name hop.load) hrun
  | hal_exit comp_id =>
      exact Obeys.ignored ((hal_exit_spec R h comp_id).mono fun _ _ ⟨_, ⟨L', hm⟩, _⟩ =>
        ⟨L', .of_moved hm (.exit _ _ _ _)⟩) hrun
  | hal_malloc size =>
      refine Obeys.ignored ((hal_malloc_spec h size).mono fun _ s' ⟨_, hs⟩ => ?_) hrun
      subst hs
      exact ⟨L, .of_moved (Moved.grow h (serve_span (r := .up size) h.good.shape.mem.span hsane))
        .nil⟩
  | hal_set_constructor comp_id make =>
      exact Obeys.ignored ((hal_set_constructor_refines h comp_id make).mono fun _ _ hr =>
        Obeys.of_set hr) hrun
  | hal_ready comp_id =>
      exact Obeys.ignored ((hal_ready_refines h comp_id).mono fun _ _ hr => Obeys.of_set hr) hrun
  | hal_unready comp_id =>
      exact Obeys.ignored ((hal_unready_refines h comp_id).mono fun _ _ hr => Obeys.of_set hr) hrun
  | hal_set_unready comp_id =>
      exact Obeys.ignored ((hal_set_unready_refines h comp_id).mono fun _ _ hr => Obeys.of_set hr) hrun
  | hal_comp_name comp_id =>
      exact Obeys.ignored ((hal_comp_name_spec h comp_id).mono fun _ _ ⟨_, hs⟩ =>
        ⟨L, hs ▸ .looked h⟩) hrun
  | hal_export_funct name funct arg uses_fp reentrant comp_id =>
      exact Obeys.ignored (hal_export_funct_obeys h name funct arg uses_fp reentrant comp_id) hrun
  | hal_create_thread name period_nsec uses_fp priority =>
      exact Obeys.ignored (hal_create_thread_obeys h name period_nsec uses_fp priority hop.load) hrun
  | hal_thread_delete name =>
      obtain ⟨r, hr⟩ := ok_of_ignored hrun
      obtain ⟨spec, hspec, -, L', hm⟩ := (hal_thread_delete_spec R h name).of_ok hr
      exact ⟨L', .of_moved hm (.delete hspec)⟩
  | hal_add_funct_to_thread funct_name thread_name position =>
      obtain ⟨r, hr⟩ := ok_of_ignored hrun
      exact Obeys.of_refines ((hal_add_funct_spec h funct_name thread_name position rfl).of_ok hr).2
        (.add_funct _ _ _ _ _ _)
  | hal_del_funct_from_thread funct_name thread_name =>
      exact Obeys.ignored ((hal_del_funct_refines h funct_name thread_name).mono fun _ _ hr =>
        Obeys.of_refines hr (.del_funct _ _ _ _)) hrun
  | hal_param_new name type dir data_addr comp_id =>
      refine Obeys.ignored ((hal_param_new_refines h name type dir data_addr comp_id).mono
        fun _ _ hr => Obeys.of_registering hr (fun _ hev => Registry.param_new_for hev)
          fun hl => ?_) hrun
      unfold Registry.param_new
      split_ifs <;> rfl
  | hal_pin_new name type data_ptr_addr comp_id =>
      obtain ⟨r, hr⟩ := ok_of_ignored hrun
      have hspec := ((hal_pin_new_spec h name type data_ptr_addr comp_id).of_ok hr).2.1
      refine Obeys.of_registering hspec (fun _ hev => Registry.pin_new_for hev) fun hl => ?_
      unfold Registry.pin_new
      split_ifs <;> rfl
  | hal_get_stats stats =>
      refine Obeys.ignored ((hal_get_stats_spec h stats).mono fun _ s' hs => ?_) hrun
      rcases hs with ⟨-, -, rfl⟩ | ⟨-, rfl, -⟩
      · exact ⟨L, hkept⟩
      · exact ⟨L, .looked h⟩
  | hal_set_lock lock_type => exact hop.ordinary.elim
  | hal_get_lock =>
      refine Obeys.ignored ?_ hrun
      unfold Hal.hal_get_lock
      simp only [returns_bind, returns_get]
      exact .ite (fun _ => ⟨L, hkept⟩) fun _ => ⟨L, hkept⟩
  | hal_start_threads =>
      refine Obeys.ignored ?_ hrun
      unfold Hal.hal_start_threads
      simp only [returns_bind, returns_get]
      exact .ite (fun _ => ⟨L, hkept⟩) fun _ => .ite (fun _ => ⟨L, hkept⟩) fun _ =>
        .ite (fun _ => ⟨L, hkept⟩) fun _ => .ite (fun _ => ⟨L, hkept⟩) fun _ =>
        ⟨L, .flags h .running 1⟩
  | hal_stop_threads =>
      refine Obeys.ignored ?_ hrun
      unfold Hal.hal_stop_threads
      simp only [returns_bind, returns_get]
      exact .ite (fun _ => ⟨L, hkept⟩) fun _ => .ite (fun _ => ⟨L, hkept⟩) fun _ =>
        .ite (fun _ => ⟨L, hkept⟩) fun _ => .ite (fun _ => ⟨L, hkept⟩) fun _ =>
        ⟨L, .flags h .active 0⟩
  | hal_get_state =>
      refine Obeys.ignored ?_ hrun
      unfold Hal.hal_get_state
      simp only [returns_bind, returns_get]
      exact .ite (fun _ => ⟨L, hkept⟩) fun _ => ⟨L, hkept⟩
  | teardown => exact hop.ordinary.elim

/-! ### The state and the flag after one operation -/

/-- A deletion that is refused or finds no thread frees none. -/
theorem hal_thread_delete_misses (h : Inv s L) {name : CStr} (hno : ¬ Unlists s name) :
    Returns (hal_thread_delete R name) s fun _ s' => s'.shm.state = s.shm.state ∧
      s'.shm.threads_running = s.shm.threads_running := by
  unfold hal_thread_delete
  simp only [returns_bind, returns_get]
  refine .ite (fun _ => ⟨rfl, rfl⟩) fun _ => ?_
  refine .ite (fun _ => ⟨rfl, rfl⟩) fun hl => .ite (fun _ => ⟨rfl, rfl⟩) fun hst => ?_
  have hnone : ∀ x ∈ L.act .thread, ¬ strcmp (s.shm.thread x).name name = 0 := by
    intro x hx e
    rcases find_thread_cases h.good.shape name with ⟨-, hv⟩ | ⟨t, -, ht0, hf, -, -⟩
    · exact List.find?_eq_none.mp hv (slot s.shm L x) (List.mem_map_of_mem hx)
        (decide_eq_true (strcmp_eq_zero.mp e))
    · exact hno ⟨not_not.mp hl, Decidable.or_iff_not_not_and_not.mpr hst, t, ht0, hf⟩
  set m : Segment := { s.shm with mutex := true } with hm
  have hg : Good m L := h.locked
  unfold Returns
  rw [wp_bind, wp_open h.attached h.unlocked, wp_bind]
  rcases seek_cases hg.shape (k := .thread) (by decide)
      (fun x => strcmp (m.thread x).name name = 0) with
    ⟨prev, hseek, hderef, -⟩ | ⟨xs, t, ys, hs, -, ht, -, -, -⟩
  · rw [wp_walk_opened hseek, wp_bind, wp_look_opened, hderef, if_pos rfl, wp_bind, wp_close rfl]
    exact ⟨rfl, rfl⟩
  · exact absurd (of_decide_eq_true ht) (hnone t (by rw [hs]; simp))

/-- What is steady clears a clear flag only. -/
theorem Steady.cleared (h : Steady s s') (hid : s.lib_mem_id ≠ 0)
    (h₀ : s.shm.threads_running = 0) :
    s'.shm.state = s.shm.state ∧ s'.shm.threads_running = s.shm.threads_running := by
  obtain ⟨-, hst, -, hflag⟩ := h hid
  exact ⟨hst, hflag.elim id fun e => e.1.trans h₀.symm⟩

/-- **One permitted operation under `HAL_LOCK_RUN`.** -/
theorem Op.unswitched {op : Op} (h : Inv s L) (hsane : op.Sane) (hop : Permitted R s op)
    (hl : s.shm.lock &&& HAL_LOCK_RUN ≠ 0) (hrun : op.run R s = .ok () s') :
    s'.shm.state = s.shm.state ∧ s'.shm.threads_running = s.shm.threads_running := by
  have hfrees : s.shm.threads_running = 0 ∨ ¬ op.Frees R s := by
    by_cases h₀ : s.shm.threads_running = 0
    · exact .inl h₀
    · exact .inr (hop.run hl h₀)
  -- the switches ask for the lock
  have hsame : ∀ {x : Prog σ Int}, Returns x s (fun _ s' => s' = s) →
      (do let _ ← x : Prog σ Unit) s = .ok () s' →
      s'.shm.state = s.shm.state ∧ s'.shm.threads_running = s.shm.threads_running := by
    intro x hx hrun
    rw [Returns.of_ignored hx hrun]
    exact ⟨rfl, rfl⟩
  by_cases hw : op.Switches
  · cases op with
    | hal_start_threads =>
        refine hsame ?_ hrun
        unfold Hal.hal_start_threads
        simp only [returns_bind, returns_get]
        exact .ite (fun _ => rfl) fun _ => .ite (fun _ => rfl) fun hno => absurd hl hno
    | hal_stop_threads =>
        refine hsame ?_ hrun
        unfold Hal.hal_stop_threads
        simp only [returns_bind, returns_get]
        exact .ite (fun _ => rfl) fun _ => .ite (fun _ => rfl) fun hno => absurd hl hno
    | _ => exact hw.elim
  by_cases hd : op.Deletes
  · cases op with
    | hal_thread_delete name =>
        rcases hfrees with h₀ | hno
        · have hsteady : Along Steady ((Op.hal_thread_delete name).run R) := Steady.op _ id
          exact (hsteady.of_ok hrun).cleared h.mem_id h₀
        · exact Returns.of_ignored (hal_thread_delete_misses h hno) hrun
    | teardown => exact hop.ordinary.elim
    | _ => exact hd.elim
  have hsteady := (op.steady hd hw).of_ok hrun
  rcases hfrees with h₀ | hno
  · exact hsteady.cleared h.mem_id h₀
  · -- nothing is rolled back, so no task is struck
    have hundone : ¬ op.Undone R s := by
      cases op with
      | hal_thread_delete name => exact absurd trivial hd
      | _ => exact hno
    obtain ⟨L', he⟩ := (op.effect h hsane hd).of_ok hrun
    obtain ⟨-, hst, -, hflag⟩ := hsteady h.mem_id
    refine ⟨hst, hflag.resolve_right fun hlt => ?_⟩
    obtain ⟨_, hlt⟩ := hlt
    rw [he.strikes h hundone] at hlt
    exact absurd hlt (Nat.lt_irrefl _)

/-! ### Runs -/

/-- What the lock of `s` promises of a later state. -/
structure Enforced (s s' : State σ) : Prop where
  load : s.shm.lock &&& HAL_LOCK_LOAD ≠ 0 →
    ∃ g g', s.shm.Holds g ∧ s'.shm.Holds g' ∧ g.NoMore g'
  config : s.shm.lock &&& HAL_LOCK_CONFIG ≠ 0 →
    ∃ g g', s.shm.Holds g ∧ s'.shm.Holds g' ∧ g.NoMounted g'
  run : s.shm.lock &&& HAL_LOCK_RUN ≠ 0 →
    s'.shm.state = s.shm.state ∧ s'.shm.threads_running = s.shm.threads_running

/-- The same of the views, with the lock itself. -/
structure Guarded (s : State σ) (L : Lists) (s' : State σ) (L' : Lists) : Prop where
  inv : Inv s' L'
  lock : s'.shm.lock = s.shm.lock
  load : s.shm.lock &&& HAL_LOCK_LOAD ≠ 0 → (view s.shm L).NoMore (view s'.shm L')
  config : s.shm.lock &&& HAL_LOCK_CONFIG ≠ 0 → (view s.shm L).NoMounted (view s'.shm L')
  run : s.shm.lock &&& HAL_LOCK_RUN ≠ 0 →
    s'.shm.state = s.shm.state ∧ s'.shm.threads_running = s.shm.threads_running

namespace Guarded

theorem refl (h : Inv s L) : Guarded s L s L :=
  ⟨h, rfl, fun _ => .refl _, fun _ => .refl _, fun _ => ⟨rfl, rfl⟩⟩

theorem trans {L'' : Lists} (h : Guarded s L s' L') (h' : Guarded s' L' s'' L'') :
    Guarded s L s'' L'' where
  inv := h'.inv
  lock := h'.lock.trans h.lock
  load hl := (h.load hl).trans (h'.load (h.lock ▸ hl))
  config hl := (h.config hl).trans (h'.config (h.lock ▸ hl))
  run hl :=
    have ⟨h₁, h₂⟩ := h.run hl
    have ⟨h₁', h₂'⟩ := h'.run (h.lock ▸ hl)
    ⟨h₁'.trans h₁, h₂'.trans h₂⟩

theorem enforced (h : Inv s L) (hg : Guarded s L s' L') : Enforced s s' where
  load hl := ⟨_, _, h.good.shape.holds, hg.inv.good.shape.holds, hg.load hl⟩
  config hl := ⟨_, _, h.good.shape.holds, hg.inv.good.shape.holds, hg.config hl⟩
  run := hg.run

end Guarded

/-- One permitted operation. -/
theorem Op.guarded {op : Op} (h : Inv s L) (hsane : op.Sane) (hop : Permitted R s op)
    (hrun : op.run R s = .ok () s') : ∃ L', Guarded s L s' L' := by
  obtain ⟨L', ho⟩ := Op.obeys h hsane hop hrun
  obtain ⟨evs, hevs, hl⟩ := ho.lawful
  refine ⟨L', ho.inv, ho.lock, fun hon => ?_, fun hon => ?_, fun hon =>
    Op.unswitched h hsane hop hon hrun⟩
  · rw [hevs]
    exact .applyAll (hl.load hon)
  · rw [hevs]
    exact .applyAll (hl.config hon)

theorem Runs.guarded (hr : Runs R (Permitted R) s₀ s) (h : Inv s₀ L) :
    ∃ L', Guarded s₀ L s L' := by
  induction hr with
  | start => exact ⟨L, .refl h⟩
  | op op _ hsane hop hrun ih =>
      obtain ⟨L₁, hg⟩ := ih
      obtain ⟨L₂, hg'⟩ := Op.guarded hg.inv hsane hop hrun
      exact ⟨L₂, hg.trans hg'⟩
  | cycle code t _ ht hrun ih =>
      obtain ⟨L₁, hg⟩ := ih
      obtain ⟨cs, data, rt, rfl⟩ := cycle_ran hg.inv (hg.inv.good.shape.listed.mp ht) hrun
      exact ⟨L₁, hg.inv.ran cs data rt, hg.lock, hg.load, hg.config, hg.run⟩

variable (R) in
/-- A sane operation that is permitted.  `hal_app_main` sets the lock word to 0 and asks for none of
its levels, so that it may come only while no level is set. -/
def Heeds (s : State σ) : Invocation → Prop
  | .op op => op.Sane ∧ Permitted R s op
  | .hal_app_main => s.shm.lock &&& HAL_LOCK_LOAD = 0 ∧ s.shm.lock &&& HAL_LOCK_CONFIG = 0 ∧
      s.shm.lock &&& HAL_LOCK_RUN = 0

/-- With a level set, HAL is not initialised again. -/
theorem Invoked.permitted (hr : Invoked R (Heeds R) s₀ s) (h : Inv s₀ L)
    (hl : ¬ (s₀.shm.lock &&& HAL_LOCK_LOAD = 0 ∧ s₀.shm.lock &&& HAL_LOCK_CONFIG = 0 ∧
      s₀.shm.lock &&& HAL_LOCK_RUN = 0)) : Runs R (Permitted R) s₀ s := by
  induction hr with
  | start => exact .start
  | call c _ hc hrun ih =>
      cases c with
      | op op => exact .op op ih hc.1 hc.2 hrun
      | hal_app_main =>
          -- the lock is still that of the start
          obtain ⟨_, hg⟩ := ih.guarded h
          rw [Heeds, hg.lock] at hc
          exact absurd hc hl
  | cycle code t _ ht hrun ih => exact .cycle code t ih ht hrun

/-- **The lock levels hold** through every run of calls that heed them. -/
theorem locks_enforced {s₁ : State σ} (h : Reachable R s₁) (hr : Invoked R (Heeds R) s₁ s) :
    Enforced s₁ s := by
  obtain ⟨L, hinv⟩ := h.inv
  by_cases hl : s₁.shm.lock &&& HAL_LOCK_LOAD = 0 ∧ s₁.shm.lock &&& HAL_LOCK_CONFIG = 0 ∧
      s₁.shm.lock &&& HAL_LOCK_RUN = 0
  · exact ⟨fun h => absurd hl.1 h, fun h => absurd hl.2.1 h, fun h => absurd hl.2.2 h⟩
  · obtain ⟨_, hg⟩ := (hr.permitted hinv hl).guarded hinv
    exact hg.enforced hinv

/-! ### A locked schedule -/

/-- The threads run their schedule, and every level is set. -/
def sealed : State Machine :=
  played (rtapi serving) [.hal_start_threads, .hal_set_lock
    (HAL_LOCK_LOAD ||| HAL_LOCK_CONFIG ||| HAL_LOCK_PARAMS ||| HAL_LOCK_RUN)] scheduled

theorem sealed_reachable : Reachable (rtapi serving) sealed :=
  have ⟨_, _, hb, hr⟩ := scheduled_reachable
  have hplay : Playable (rtapi serving) (fun _ _ => True) [.hal_start_threads, .hal_set_lock
      (HAL_LOCK_LOAD ||| HAL_LOCK_CONFIG ||| HAL_LOCK_PARAMS ||| HAL_LOCK_RUN)] scheduled :=
    ⟨trivial, trivial, by decide +kernel, trivial, trivial, by decide +kernel, trivial⟩
  ⟨_, _, hb, hplay.runs hr⟩

/-- A cycle of its thread. -/
def sealedCycle : State Machine :=
  after (thread_task_cycle (rtapi serving) (fun _ _ _ data => data)
    (sealed.shm.arena.pool .thread).list_ptr) sealed

/-- A stop, a function and a pin, which are refused, a request for memory, and the exit of the
component. -/
def heedingOps : List Op :=
  [.hal_stop_threads, .hal_export_funct (lit ['g']) 8 16 0 1 2, .hal_pin_new (lit ['p']) .s32 69632 2,
    .hal_malloc 64, .hal_exit 2]

theorem locks_enforced_sample : ∃ s, Invoked (rtapi serving) (Heeds (rtapi serving)) sealed s ∧
    Enforced sealed s ∧ s.calls.length = 1 := by
  have hlisted : sealed.shm.Listed .thread (sealed.shm.arena.pool .thread).list_ptr :=
    (Segment.listed_one (by decide +kernel) (by decide +kernel)).mpr rfl
  -- a cycle of the thread, and then the operations
  have hcycle : Runs (rtapi serving) (Permitted (rtapi serving)) sealed sealedCycle :=
    .cycle _ _ .start hlisted (after_eq (by decide +kernel))
  have hheeds : ∀ {s : State Machine} {op : Op}, op ∈ heedingOps → Permitted (rtapi serving) s op := by
    intro s op hop
    simp only [heedingOps, List.mem_cons, List.not_mem_nil, or_false] at hop
    rcases hop with rfl | rfl | rfl | rfl | rfl <;> exact ⟨trivial, fun _ => id, fun _ _ => id⟩
  have hplay : Playable (rtapi serving) (Permitted (rtapi serving)) heedingOps sealedCycle :=
    ⟨trivial, hheeds (by simp [heedingOps]), by decide +kernel,
      trivial, hheeds (by simp [heedingOps]), by decide +kernel,
      trivial, hheeds (by simp [heedingOps]), by decide +kernel,
      show (0 : Int) ≤ 64 by decide, hheeds (by simp [heedingOps]), by decide +kernel,
      trivial, hheeds (by simp [heedingOps]), by decide +kernel, trivial⟩
  have hinvoked : Invoked (rtapi serving) (Heeds (rtapi serving)) sealed _ :=
    (hplay.runs hcycle).invoked fun _ _ hsane hop => ⟨hsane, hop⟩
  exact ⟨_, hinvoked, locks_enforced sealed_reachable hinvoked, by decide +kernel⟩

/-- The threads run, and `HAL_LOCK_RUN` is set. -/
def unstoppable : State Machine :=
  played (rtapi serving) [.hal_create_thread (lit ['t']) 1000000 0 50, .hal_start_threads,
    .hal_set_lock HAL_LOCK_RUN] started

/-- The calls that the claim of the levels is about. -/
def Invocation.Ordinary : Invocation → Prop
  | .op o => o.Ordinary
  | .hal_app_main => True

/-- A component comes under `HAL_LOCK_LOAD`, a thread with too high a priority stops the threads
under `HAL_LOCK_RUN`, and so does `hal_app_main`, which takes the schedule and the lock with it. -/
theorem locks_evaded :
    (∃ s, Reachable (rtapi serving) unloadable ∧
      Invoked (rtapi serving) (fun _ c => c.Ordinary) unloadable s ∧ ¬ Enforced unloadable s) ∧
    (∃ s, Reachable (rtapi serving) unstoppable ∧
      Invoked (rtapi serving) (fun _ c => c.Ordinary) unstoppable s ∧ ¬ Enforced unstoppable s) ∧
    ∃ s, Reachable (rtapi serving) sealed ∧
      Invoked (rtapi serving) (fun _ c => c.Ordinary) sealed s ∧ s.shm.lock = 0 ∧
        (s.shm.arena.pool .thread).list_ptr = 0 ∧ ¬ Enforced sealed s := by
  refine ⟨?_, ?_, ?_⟩
  · have hplay : Playable (rtapi serving) (fun _ op => op.Ordinary) [.hal_init (some (lit ['c']))]
        unloadable := ⟨trivial, trivial, by decide +kernel, trivial⟩
    refine ⟨_, Playable.reachable ⟨trivial, trivial, by decide +kernel, trivial⟩,
      (hplay.runs .start).invoked fun _ _ _ h => h, fun h => ?_⟩
    obtain ⟨g, g', hg, hg', hno⟩ := h.load (by decide +kernel)
    -- no component before, one after
    have hnil : keys g.comps = [] := hg.comps.1.unique
      (show Chain _ _ [] from (by decide +kernel : (unloadable.shm.arena.pool .comp).list_ptr = 0))
    have hnil' := List.sublist_nil.mp (hnil ▸ hno.comps)
    have hchain := hg'.comps.1
    rw [hnil'] at hchain
    exact absurd (show _ = 0 from hchain) (by decide +kernel)
  · have hplay : Playable (rtapi serving) (fun _ op => op.Ordinary)
        [.hal_create_thread (lit ['u']) 1000000 0 200] unstoppable :=
      ⟨trivial, trivial, by decide +kernel, trivial⟩
    refine ⟨_, Playable.reachable ⟨trivial, trivial, by decide +kernel, trivial, trivial,
        by decide +kernel, trivial, trivial, by decide +kernel, trivial⟩,
      (hplay.runs .start).invoked fun _ _ _ h => h, fun h => ?_⟩
    exact absurd (h.run (by decide +kernel)).2 (by decide +kernel)
  · refine ⟨after (Invocation.hal_app_main.run (rtapi serving)) sealed, sealed_reachable,
      .call .hal_app_main .start trivial (after_eq (by decide +kernel)), by decide +kernel,
      by decide +kernel, fun h => ?_⟩
    exact absurd (h.run (by decide +kernel)).2 (by decide +kernel)

end RTS.Hal

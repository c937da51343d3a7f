import RealTimeSystem.System.Conservation
import RealTimeSystem.System.Lifecycle

/-!
# System — `hal_exit` takes exactly what the component owns

`Segment.Holds` reads a registry off the lists of the segment: every list in its order, every
record, and for each thread its ring.  `Registry.without` is a registry less one component, its
functions, its parameters and the entries that call those functions.  `hal_exit` goes from the one
to the other, or finds no component and leaves every list.
-/

namespace RTS.Hal

open RTS.Support RTS.Uspace

variable {σ : Type} {R : Rtapi σ} {s s' s₀ : State σ} {L : Lists}

/-! ### What the lists hold -/

/-- The list in use of a kind, and the records on it. -/
def Segment.Table {α : Type} (m : Segment) (k : Kind) (f : Nat → α) (t : List (Nat × α)) : Prop :=
  Chain (m.arena.pool k).next_ptr (m.arena.pool k).list_ptr (keys t) ∧ ∀ p ∈ t, p.2 = f p.1

/-- The lists of the segment hold the registry, each in its order. -/
structure Segment.Holds (m : Segment) (g : Registry) : Prop where
  comps : m.Table .comp m.comp g.comps
  pins : m.Table .pin m.pin g.pins
  params : m.Table .param m.param g.params
  functs : m.Table .funct m.funct g.functs
  threads : m.Table .thread m.thread (g.threads.map fun t => (t.off, t.thread))
  rings : ∀ t ∈ g.threads, Ring m.arena.links (t.off + THREAD_FUNCT_LIST) (keys t.entries) ∧
    t.off + THREAD_FUNCT_LIST ∉ keys t.entries ∧ ∀ e ∈ t.entries, e.2 = m.entry e.1

theorem Segment.Table.unique {α : Type} {m : Segment} {k : Kind} {f : Nat → α}
    {t t' : List (Nat × α)} (h : m.Table k f t) (h' : m.Table k f t') : t' = t := by
  have hkeys : keys t' = keys t := h'.1.unique h.1
  have htab : ∀ {u : List (Nat × α)}, (∀ p ∈ u, p.2 = f p.1) → u = (keys u).map fun x => (x, f x) := by
    intro u hu
    rw [keys, List.map_map]
    exact (List.map_id u).symm.trans (List.map_congr_left fun p hp => Prod.ext rfl (hu p hp))
  rw [htab h'.2, hkeys, ← htab h.2]

theorem Shape.table {α : Type} {m : Segment} (h : Shape m.arena L) (k : Kind) (f : Nat → α) :
    m.Table k f (tab f (L.act k)) :=
  ⟨by rw [keys_tab]; exact (h.rep k).used, fun _ hp => (mem_tab.mp hp).2⟩

theorem Shape.holds {m : Segment} (h : Shape m.arena L) : m.Holds (view m L) where
  comps := h.table .comp m.comp
  pins := h.table .pin m.pin
  params := h.table .param m.param
  functs := h.table .funct m.funct
  threads := by
    have ht : (view m L).threads.map (fun t => (t.off, t.thread)) = tab m.thread (L.act .thread) := by
      simp [view, tab, Function.comp_def]
    rw [ht]
    exact h.table .thread m.thread
  rings := by
    intro u hu
    obtain ⟨t, ht, rfl⟩ := List.mem_map.mp hu
    have hr : t + THREAD_FUNCT_LIST ∈ L.roots := Shape.thread_root (.inl ht)
    rw [slot_entries, keys_tab]
    exact ⟨h.rings.closed _ hr, (List.nodup_cons.mp (h.rings.nodup _ hr)).1,
      fun _ he => (mem_tab.mp he).2⟩

/-! ### What goes with a component -/

namespace Registry

/-- The component `x` owns the function. -/
def Owns (g : Registry) (x f : Nat) : Prop := ∃ p ∈ g.functs, p.1 = f ∧ p.2.owner_ptr = x

instance (g : Registry) (x f : Nat) : Decidable (g.Owns x f) :=
  inferInstanceAs (Decidable (∃ p ∈ g.functs, _))

/-- The registry less the component `x`, what it owns, and the entries that call its functions; its
pins stay. -/
def without (g : Registry) (x : Nat) : Registry where
  comps := g.comps.filter fun p => p.1 ≠ x
  pins := g.pins
  params := g.params.filter fun p => p.2.owner_ptr ≠ x
  functs := g.functs.filter fun p => p.2.owner_ptr ≠ x
  threads := g.threads.map fun t =>
    { t with entries := t.entries.filter fun e => ¬ g.Owns x e.2.funct_ptr }

/-- Dropping functions one after the other. -/
theorem applyAll_dropFuncts (g : Registry) (xs : List Nat) :
    g.applyAll (xs.map .dropFunct) = { g with
      functs := g.functs.filter fun p => p.1 ∉ xs
      threads := g.threads.map fun t =>
        { t with entries := t.entries.filter fun e => e.2.funct_ptr ∉ xs } } := by
  induction xs generalizing g with
  | nil => simp
  | cons x xs ih =>
      rw [List.map_cons, applyAll_cons, ih]
      simp only [apply, List.filter_filter, List.map_map, List.mem_cons, not_or, Bool.decide_and,
        Function.comp_def, Bool.and_comm]

/-- Dropping parameters one after the other. -/
theorem applyAll_dropParams (g : Registry) (xs : List Nat) :
    g.applyAll (xs.map .dropParam) = { g with params := g.params.filter fun p => p.1 ∉ xs } := by
  induction xs generalizing g with
  | nil => simp
  | cons x xs ih =>
      rw [List.map_cons, applyAll_cons, ih]
      simp only [apply, List.filter_filter, List.mem_cons, not_or, Bool.decide_and, Bool.and_comm]

/-- Keys being unique, an entry of a table is owned when its key is among those of the owned. -/
theorem mem_owned {α : Type} {t : List (Nat × α)} (hnd : (keys t).Nodup) (q : α → Bool)
    {p : Nat × α} (hp : p ∈ t) : p.1 ∈ keys (t.filter fun p => q p.2) ↔ q p.2 = true := by
  constructor
  · intro h
    obtain ⟨p', hp', e⟩ := List.mem_map.mp h
    obtain ⟨hp', hq⟩ := List.mem_filter.mp hp'
    obtain rfl := List.inj_on_of_nodup_map hnd hp' hp e
    exact hq
  · intro h
    exact List.mem_map_of_mem (List.mem_filter.mpr ⟨hp, h⟩)

/-- **What `hal_exit` takes.** -/
theorem applyAll_leave {g : Registry} (h : g.Sound) (hparams : (keys g.params).Nodup) (x : Nat) :
    g.applyAll (g.leave x) = g.without x := by
  have hmap : ∀ {α : Type} (t : List (Nat × α)) (ev : Nat → Event),
      t.map (fun p => ev p.1) = (keys t).map ev := fun t ev => by simp [keys, Function.comp_def]
  have hfuncts : g.functs.filter (fun p =>
      p.1 ∉ keys (g.functs.filter fun p => decide (p.2.owner_ptr = x))) =
      g.functs.filter fun p => p.2.owner_ptr ≠ x := List.filter_congr fun p hp => by
    simp only [mem_owned h.functs_keys (fun f : Funct => decide (f.owner_ptr = x)) hp,
      decide_eq_true_eq, ne_eq]
  have hparams' : g.params.filter (fun p =>
      p.1 ∉ keys (g.params.filter fun p => decide (p.2.owner_ptr = x))) =
      g.params.filter fun p => p.2.owner_ptr ≠ x := List.filter_congr fun p hp => by
    simp only [mem_owned hparams (fun f : Param => decide (f.owner_ptr = x)) hp, decide_eq_true_eq,
      ne_eq]
  have howns : ∀ f, f ∈ keys (g.functs.filter fun p => decide (p.2.owner_ptr = x)) ↔ g.Owns x f := by
    intro f
    simp only [keys, List.mem_map, List.mem_filter, decide_eq_true_eq, Owns]
    exact ⟨fun ⟨p, ⟨hp, ho⟩, e⟩ => ⟨p, hp, e, ho⟩, fun ⟨p, hp, e, ho⟩ => ⟨p, ⟨hp, ho⟩, e⟩⟩
  rw [leave, applyAll_append, applyAll_append, hmap _ Event.dropFunct, hmap _ Event.dropParam,
    applyAll_dropFuncts, applyAll_dropParams]
  simp only [applyAll_cons, applyAll_nil, apply, hfuncts, hparams', without]
  simp only [howns]

end Registry

/-! ### HAL is not destroyed while it is in use -/

theorem hal_start_threads_state (h : s.shm.state ≠ .destroyed) :
    Returns hal_start_threads s fun _ s' => s'.shm.state ≠ .destroyed := by
  unfold hal_start_threads
  simp only [returns_bind, returns_get]
  exact .ite (fun _ => h) fun _ => .ite (fun _ => h) fun _ => .ite (fun _ => h) fun _ =>
    .ite (fun _ => h) fun _ => show HalState.running ≠ .destroyed by decide

theorem hal_stop_threads_state (h : s.shm.state ≠ .destroyed) :
    Returns hal_stop_threads s fun _ s' => s'.shm.state ≠ .destroyed := by
  unfold hal_stop_threads
  simp only [returns_bind, returns_get]
  exact .ite (fun _ => h) fun _ => .ite (fun _ => h) fun _ => .ite (fun _ => h) fun _ =>
    .ite (fun _ => h) fun _ => show HalState.active ≠ .destroyed by decide

/-- No operation sets the state to `destroyed`. -/
theorem Op.not_destroyed {op : Op} (h : Inv s L) (hd : s.shm.state ≠ .destroyed)
    (hrun : op.run R s = .ok () s') : s'.shm.state ≠ .destroyed := by
  by_cases hdel : op.Deletes
  · cases op with
    | hal_thread_delete name =>
        have hspec : Wp (Op.run R (.hal_thread_delete name)) s
            (fun _ s' => s'.shm.state ≠ .destroyed) fun _ _ => True :=
          wp_bind.mpr ((hal_thread_delete_spec R h name).mono
            (fun _ s₁ ⟨_, _, _, _, hm⟩ => show s₁.shm.state ≠ .destroyed from hm.state.symm ▸ hd)
            fun _ _ _ => trivial)
        exact hspec.of_ok hrun
    | teardown =>
        obtain ⟨L', hm, -⟩ := (hal_app_teardown_moved R h).of_ok hrun
        rw [hm.state]
        exact fun e => nomatch e
    | _ => exact hdel.elim
  by_cases hw : op.Switches
  · cases op with
    | hal_start_threads => exact Returns.of_ignored (hal_start_threads_state hd) hrun
    | hal_stop_threads => exact Returns.of_ignored (hal_stop_threads_state hd) hrun
    | _ => exact hw.elim
  · obtain ⟨-, hst, -⟩ := (op.steady hdel hw).of_ok hrun h.mem_id
    rw [hst]
    exact hd

theorem Runs.not_destroyed {allowed : State σ → Op → Prop} (hr : Runs R allowed s₀ s)
    (h : ∃ L, Inv s₀ L) (hd : s₀.shm.state ≠ .destroyed) : s.shm.state ≠ .destroyed := by
  induction hr with
  | start => exact hd
  | op op hr _ _ hrun ih =>
      obtain ⟨L, hinv⟩ := hr.inv h
      exact Op.not_destroyed hinv ih hrun
  | cycle code t hr ht hrun ih =>
      obtain ⟨L, hinv⟩ := hr.inv h
      obtain ⟨cs, data, rt, rfl⟩ := cycle_ran hinv (hinv.good.shape.listed.mp ht) hrun
      exact ih

theorem Reachable.not_destroyed (h : Reachable R s) : s.shm.state ≠ .destroyed := by
  obtain ⟨s₀, s₁, hb, hr⟩ := h
  obtain ⟨_, _, hup⟩ := hb.up_spec
  refine hr.not_destroyed ⟨_, hb.inv⟩ ?_
  rw [hup.state]
  exact fun e => nomatch e

/-! ### The cascade -/

/-- Either there is no such component and every list stays, or the component goes with what it owns
and nothing else changes on any list. -/
def Exits (comp_id : Int) (m : Segment) (r : Int) (m' : Segment) : Prop :=
  ∃ g, m.Holds g ∧
    ((r < 0 ∧ (∀ p ∈ g.comps, p.2.comp_id ≠ comp_id) ∧ m'.Holds g) ∨
      (r = 0 ∧ ∃ p, g.findComp comp_id = some p ∧ m'.Holds (g.without p.1)))

/-- **The cascade of `hal_exit` is exact** in every reachable state. -/
theorem hal_exit_cascade (h : Reachable R s) (comp_id : Int) :
    ∃ r s', hal_exit R comp_id s = .ok r s' ∧ Exits comp_id s.shm r s'.shm := by
  obtain ⟨L, hinv⟩ := h.inv
  obtain ⟨r, s', hrun, hr, ⟨L', hm⟩, -⟩ := (hal_exit_spec R hinv comp_id).exists_ok
  refine ⟨r, s', hrun, view s.shm L, hinv.good.shape.holds, ?_⟩
  have hholds := hm.inv.good.shape.holds
  rw [hm.events] at hholds
  rw [Registry.exit, if_neg h.not_destroyed] at hr hholds
  rcases hf : (view s.shm L).findComp comp_id with _ | ⟨x, c⟩
  · rw [hf] at hr hholds
    refine .inl ⟨hr ▸ show -EINVAL < 0 by decide, fun p hp e => ?_, hholds⟩
    exact List.find?_eq_none.mp hf p hp (decide_eq_true e)
  · rw [hf] at hr hholds
    have hparams : (keys (view s.shm L).params).Nodup := by
      rw [view, keys_tab]
      exact (hinv.good.shape.rep .param).used.nodup
    refine .inr ⟨hr, (x, c), rfl, ?_⟩
    rwa [← Registry.applyAll_leave hinv.good.sound hparams]

/-- The component whose function the thread calls. -/
theorem hal_exit_cascade_sample :
    (∃ r s', hal_exit (rtapi serving) 2 scheduled = .ok r s' ∧ Exits 2 scheduled.shm r s'.shm) ∧
      result (hal_exit (rtapi serving) 2) scheduled = some 0 :=
  ⟨hal_exit_cascade scheduled_reachable 2, by decide +kernel⟩

end RTS.Hal

import RealTimeSystem.Hal.Effects
import RealTimeSystem.Support.Steps
import RealTimeSystem.System.Boot

/-!
# System — a cycle of a thread while the schedules change

One cycle of `thread_task`, one function entry per step, beside whole calls of
`hal_add_funct_to_thread`, `hal_del_funct_from_thread` and `hal_exit` by another thread.  The calls
take the mutex; the cycle does not, and keeps the entry it stands on in a variable of its own.

**`traversal_safe`**: while no call removes the entry the cycle stands on, the cycle stays on the
ring of its thread and ends.  `removes_iff` says which calls remove it.
-/

namespace RTS.Hal

open RTS.Support RTS.Uspace

variable {σ : Type} (R : Rtapi σ)

/-! ### One function entry -/

section
variable (code : Addr → Addr → Int → (Addr → Int) → (Addr → Int)) (thread : Nat)

/-- The body of the loop of `thread_task`: `end_time`, and the next entry unless the loop is left. -/
def run_funct (funct_entry : Nat) : Prog σ (Int × Option Nat) := do
  let s ← get
  let e := s.shm.entry funct_entry
  let period := (s.shm.thread thread).period
  jump e.funct
  modify fun s => { s with
    calls := ⟨e.funct, e.arg, period⟩ :: s.calls
    shm := { s.shm with data := code e.funct e.arg period s.shm.data } }
  let end_time ← call R.get_clocks
  if e.funct_ptr = 0 then
    return (end_time, none)
  let runtime ← look fun m => m.cell (e.funct_ptr + FUNCT_RUNTIME)
  let maxtime := s.hal_shmem_base + (e.funct_ptr + FUNCT_MAXTIME)
  let increased := s.hal_shmem_base + (e.funct_ptr + FUNCT_MAXTIME_INCREASED)
  if runtime ≠ 0 then
    change fun m =>
      if m.data runtime > m.data maxtime then
        (m.setData maxtime (m.data runtime)).setData increased 1
      else m.setData increased 0
    let next ← look fun m => m.arena.links.next funct_entry
    return (end_time, some next)
  else
    let next ← look fun m => m.arena.links.next funct_entry
    return (end_time, some next)

/-- The loop is its body, again and again. -/
theorem run_functs_eq (fuel funct_entry : Nat) (end_time : Int) :
    run_functs R code thread (fuel + 1) funct_entry end_time =
      if funct_entry = thread + THREAD_FUNCT_LIST then return end_time
      else run_funct R code thread funct_entry >>= fun r =>
        match r.2 with
        | none => return r.1
        | some next => run_functs R code thread fuel next r.1 := by
  rw [run_functs, run_funct]
  split_ifs
  · rfl
  simp only [bind_assoc]
  refine bind_congr fun s => bind_congr fun _ => bind_congr fun _ => bind_congr fun end_time => ?_
  split_ifs
  · rw [pure_bind]
  · simp only [bind_assoc]
    refine bind_congr fun runtime => ?_
    split_ifs
    · simp only [bind_assoc, pure_bind]
    · simp only [bind_assoc, pure_bind]

end

/-- An entry of a thread calls its function, and the cycle goes on to the next one. -/
theorem run_funct_spec (code : Addr → Addr → Int → (Addr → Int) → (Addr → Int)) {s : State σ}
    {L : Lists} {t e : Nat} {xs ys : List Nat} (h : Shape s.shm.arena L)
    (hr : t + THREAD_FUNCT_LIST ∈ L.roots) (hs : L.ring (t + THREAD_FUNCT_LIST) = xs ++ e :: ys)
    (hf : (s.shm.entry e).funct_ptr ≠ 0) (hcode : (s.shm.entry e).funct ≠ 0) :
    Returns (run_funct R code t e) s fun r s' => r.2 = some (ys.headD (t + THREAD_FUNCT_LIST)) ∧
      ∃ data rt, s' = s.ran [call_of (s.shm.thread t) (s.shm.entry e)] data rt := by
  have hnext : s.shm.arena.links.next e = ys.headD (t + THREAD_FUNCT_LIST) := h.next_after hr hs
  unfold run_funct Returns
  simp only [wp_bind, wp_get, wp_jump hcode, wp_modify, wp_call]
  refine .ite (fun h0 => absurd h0 hf) fun _ => ?_
  rw [wp_bind, wp_look]
  refine .ite (fun _ => ?_) fun _ => ?_
  · rw [wp_bind, wp_change, wp_bind, wp_look, wp_pure]
    split_ifs
    · exact ⟨congrArg some hnext, _, _, rfl⟩
    · exact ⟨congrArg some hnext, _, _, rfl⟩
  · rw [wp_bind, wp_look, wp_pure]
    exact ⟨congrArg some hnext, _, _, rfl⟩

/-! ### What the calls do to a schedule -/

/-- The events of the three calls. -/
def Event.Edits : Event → Prop
  | .schedule _ _ _ _ | .unschedule _ _ _ | .dropFunct _ | .dropParam _ | .dropComp _ => True
  | _ => False

/-- The event takes the entry `e`, which holds `r`, from the schedule of `t`. -/
def Event.Takes (t e : Nat) (r : Entry) : Event → Prop
  | .unschedule t' e' _ => t' = t ∧ e' = e
  | .dropFunct x => r.funct_ptr = x
  | _ => False

/-- The event puts an entry into the schedule of `t`. -/
def Event.Puts (t e : Nat) (r : Entry) : Event → Prop
  | .schedule t' _ e' r' => t' = t ∧ e' = e ∧ r' = r
  | _ => False

namespace Registry

variable {g : Registry} {t e : Nat} {r : Entry} {ev : Event} {evs : List Event}

theorem mem_entriesOf :
    (e, r) ∈ g.entriesOf t ↔ ∃ u ∈ g.threads, u.off = t ∧ (e, r) ∈ u.entries := by
  simp [entriesOf, and_assoc]

/-- Where only the entries of the threads change. -/
theorem mem_entriesOf_map {g' : Registry} {f : Slot → List (Nat × Entry)}
    (hg : g'.threads = g.threads.map fun u => { u with entries := f u }) :
    (e, r) ∈ g'.entriesOf t ↔ ∃ u ∈ g.threads, u.off = t ∧ (e, r) ∈ f u := by
  rw [mem_entriesOf, hg]
  constructor
  · rintro ⟨_, hu, ht, he⟩
    obtain ⟨u', hu', rfl⟩ := List.mem_map.mp hu
    exact ⟨u', hu', ht, he⟩
  · rintro ⟨u, hu, ht, he⟩
    exact ⟨_, List.mem_map_of_mem hu, ht, he⟩

theorem reschedule_eq (t : Nat) (f : List (Nat × Entry) → List (Nat × Entry)) (ss : List Slot) :
    reschedule t f ss =
      ss.map fun u => { u with entries := if u.off = t then f u.entries else u.entries } := by
  refine List.map_congr_left fun u _ => ?_
  split_ifs
  · rfl
  · rfl

/-- **The schedule after an event.** -/
theorem mem_entriesOf_apply (hev : ev.Edits) (ht : t ∈ g.threads.map Slot.off) :
    (e, r) ∈ (g.apply ev).entriesOf t ↔
      ((e, r) ∈ g.entriesOf t ∧ ¬ ev.Takes t e r) ∨ ev.Puts t e r := by
  cases ev with
  | schedule t' i e' r' =>
      rw [mem_entriesOf_map (g := g) (reschedule_eq t' (fun es => es.take i ++ (e', r') :: es.drop i)
        g.threads), mem_entriesOf]
      constructor
      · rintro ⟨u, hu, hut, he⟩
        split_ifs at he with h
        · rw [List.mem_append, List.mem_cons, or_left_comm, ← List.mem_append,
            List.take_append_drop] at he
          rcases he with he | he
          · cases he
            exact .inr ⟨h.symm.trans hut, rfl, rfl⟩
          · exact .inl ⟨⟨u, hu, hut, he⟩, id⟩
        · exact .inl ⟨⟨u, hu, hut, he⟩, id⟩
      · rintro (⟨⟨u, hu, hut, he⟩, -⟩ | ⟨rfl, rfl, rfl⟩)
        · refine ⟨u, hu, hut, ?_⟩
          split_ifs with h
          · rw [List.mem_append, List.mem_cons, or_left_comm, ← List.mem_append,
              List.take_append_drop]
            exact .inr he
          · exact he
        · obtain ⟨u, hu, hut⟩ := List.mem_map.mp ht
          exact ⟨u, hu, hut, by rw [if_pos hut]; simp⟩
  | unschedule t' e' f =>
      rw [mem_entriesOf_map (g := g) (reschedule_eq t' (fun es => es.filter fun y => y.1 ≠ e')
        g.threads), mem_entriesOf]
      constructor
      · rintro ⟨u, hu, hut, he⟩
        split_ifs at he with h
        · obtain ⟨he, hne⟩ := List.mem_filter.mp he
          refine .inl ⟨⟨u, hu, hut, he⟩, fun ⟨_, hee⟩ => ?_⟩
          exact absurd hee.symm (by simpa using hne)
        · exact .inl ⟨⟨u, hu, hut, he⟩, fun ⟨htt, _⟩ => h (hut.trans htt.symm)⟩
      · rintro (⟨⟨u, hu, hut, he⟩, hn⟩ | h)
        · refine ⟨u, hu, hut, ?_⟩
          split_ifs with h
          · exact List.mem_filter.mpr
              ⟨he, by simpa using fun hee => hn ⟨h.symm.trans hut, Eq.symm hee⟩⟩
          · exact he
        · exact h.elim
  | dropFunct x =>
      rw [mem_entriesOf_map (g := g) rfl, mem_entriesOf]
      constructor
      · rintro ⟨u, hu, hut, he⟩
        obtain ⟨he, hne⟩ := List.mem_filter.mp he
        exact .inl ⟨⟨u, hu, hut, he⟩, show r.funct_ptr ≠ x by simpa using hne⟩
      · rintro (⟨⟨u, hu, hut, he⟩, hn : r.funct_ptr ≠ x⟩ | h)
        · exact ⟨u, hu, hut, List.mem_filter.mpr ⟨he, by simpa using hn⟩⟩
        · exact h.elim
  | dropParam x => exact ⟨fun h => .inl ⟨h, id⟩, fun h => h.elim And.left False.elim⟩
  | dropComp x => exact ⟨fun h => .inl ⟨h, id⟩, fun h => h.elim And.left False.elim⟩
  | _ => exact hev.elim

/-- The threads and the code of the functions stay. -/
theorem apply_edits (hev : ev.Edits) : (g.apply ev).heads = g.heads ∧
    ∀ p ∈ (g.apply ev).functs, ∃ q ∈ g.functs, q.1 = p.1 ∧ q.2.funct = p.2.funct := by
  have hmap : ∀ (f : Nat) (d : Int), ∀ p ∈ g.functs.map (fun p =>
      if p.1 = f then (p.1, { p.2 with users := p.2.users + d }) else p),
      ∃ q ∈ g.functs, q.1 = p.1 ∧ q.2.funct = p.2.funct := by
    intro f d p hp
    obtain ⟨q, hq, rfl⟩ := List.mem_map.mp hp
    exact ⟨q, hq, by split_ifs <;> rfl, by split_ifs <;> rfl⟩
  cases ev with
  | schedule t i e r => exact ⟨heads_schedule g t i e r, hmap r.funct_ptr 1⟩
  | unschedule t e f => exact ⟨heads_unschedule g t e f, hmap f (-1)⟩
  | dropFunct x =>
      refine ⟨?_, fun p hp => ⟨p, List.mem_of_mem_filter hp, rfl, rfl⟩⟩
      simp [heads, apply, Function.comp_def]
  | dropParam x => exact ⟨rfl, fun p hp => ⟨p, hp, rfl, rfl⟩⟩
  | dropComp x => exact ⟨rfl, fun p hp => ⟨p, hp, rfl, rfl⟩⟩
  | _ => exact hev.elim

theorem applyAll_edits (hevs : ∀ ev ∈ evs, ev.Edits) : (g.applyAll evs).heads = g.heads ∧
    ∀ p ∈ (g.applyAll evs).functs, ∃ q ∈ g.functs, q.1 = p.1 ∧ q.2.funct = p.2.funct := by
  induction evs generalizing g with
  | nil => exact ⟨rfl, fun p hp => ⟨p, hp, rfl, rfl⟩⟩
  | cons ev evs ih =>
      obtain ⟨h₁, hf₁⟩ := apply_edits (g := g) (hevs ev (by simp))
      obtain ⟨h₂, hf₂⟩ := ih (g := g.apply ev) fun ev' h' => hevs ev' (List.mem_cons_of_mem _ h')
      refine ⟨h₂.trans h₁, fun p hp => ?_⟩
      obtain ⟨q, hq, hqp, hqf⟩ := hf₂ p hp
      obtain ⟨q', hq', hqq, hqf'⟩ := hf₁ q hq
      exact ⟨q', hq', hqq.trans hqp, hqf'.trans hqf⟩

theorem offs_heads (g : Registry) : g.threads.map Slot.off = g.heads.map Prod.fst := by
  simp [heads, Function.comp_def]

theorem offs_edits (hev : ev.Edits) :
    (g.apply ev).threads.map Slot.off = g.threads.map Slot.off := by
  rw [offs_heads, (apply_edits hev).1, ← offs_heads]

/-- An entry stays where no event takes it. -/
theorem mem_entriesOf_kept (hevs : ∀ ev ∈ evs, ev.Edits) (ht : t ∈ g.threads.map Slot.off)
    (he : (e, r) ∈ g.entriesOf t) (hn : ∀ ev ∈ evs, ¬ ev.Takes t e r) :
    (e, r) ∈ (g.applyAll evs).entriesOf t := by
  induction evs generalizing g with
  | nil => exact he
  | cons ev evs ih =>
      have hev := hevs ev (by simp)
      refine ih (fun ev' h' => hevs ev' (by simp [h'])) (by rwa [offs_edits hev])
        ((mem_entriesOf_apply hev ht).mpr (.inl ⟨he, hn ev (by simp)⟩)) fun ev' h' => hn ev' ?_
      simp [h']

/-- Where no event puts an entry, it was there before and none took it. -/
theorem mem_entriesOf_of_applyAll (hevs : ∀ ev ∈ evs, ev.Edits ∧ ¬ ev.Puts t e r)
    (ht : t ∈ g.threads.map Slot.off) (he : (e, r) ∈ (g.applyAll evs).entriesOf t) :
    (e, r) ∈ g.entriesOf t ∧ ∀ ev ∈ evs, ¬ ev.Takes t e r := by
  induction evs generalizing g with
  | nil => exact ⟨he, fun _ h => absurd h List.not_mem_nil⟩
  | cons ev evs ih =>
      obtain ⟨hev, hputs⟩ := hevs ev (by simp)
      obtain ⟨h₁, h₂⟩ := ih (g := g.apply ev) (fun ev' h' => hevs ev' (by simp [h']))
        (by rwa [offs_edits hev]) he
      obtain ⟨h₀, hn⟩ := ((mem_entriesOf_apply hev ht).mp h₁).resolve_right hputs
      exact ⟨h₀, List.forall_mem_cons.mpr ⟨hn, h₂⟩⟩

end Registry

theorem mem_entriesOf_view {m : Segment} {L : Lists} {t e : Nat} {r : Entry} :
    (e, r) ∈ (view m L).entriesOf t ↔
      t ∈ L.act .thread ∧ e ∈ L.ring (t + THREAD_FUNCT_LIST) ∧ r = m.entry e := by
  rw [Registry.mem_entriesOf]
  constructor
  · rintro ⟨_, hu, rfl, he⟩
    obtain ⟨t, ht, rfl⟩ := List.mem_map.mp hu
    exact ⟨ht, mem_tab.mp he⟩
  · rintro ⟨ht, he⟩
    exact ⟨_, List.mem_map_of_mem ht, rfl, mem_tab.mpr he⟩

/-! ### The calls that remove an entry -/

/-- The three calls. -/
def Op.Reconfigures : Op → Bool
  | .hal_add_funct_to_thread _ _ _ | .hal_del_funct_from_thread _ _ | .hal_exit _ => true
  | _ => false

/-- The call removes the entry `e` of the thread: it is the first entry of the function to be
deleted, or it calls a function of the component that exits. -/
def Op.Removes (m : Segment) (thread e : Nat) : Op → Prop
  | .hal_del_funct_from_thread (some funct_name) (some thread_name) =>
      m.lock &&& HAL_LOCK_CONFIG = 0 ∧ ∃ funct, funct ≠ 0 ∧
        m.halpr_find_funct_by_name funct_name = some funct ∧
        m.halpr_find_thread_by_name thread_name = some thread ∧
        find_entry m (thread + THREAD_FUNCT_LIST) funct FUEL
          (m.arena.links.next (thread + THREAD_FUNCT_LIST)) = some (some e)
  | .hal_exit comp_id =>
      m.state ≠ .destroyed ∧ ∃ comp, comp ≠ 0 ∧ m.halpr_find_comp_by_id comp_id = some comp ∧
        (m.funct (m.entry e).funct_ptr).owner_ptr = comp
  | _ => False

instance Op.Removes.decidable (m : Segment) (thread e : Nat) :
    (op : Op) → Decidable (op.Removes m thread e)
  | .hal_del_funct_from_thread (some funct_name) (some thread_name) =>
      decidable_of_iff (m.lock &&& HAL_LOCK_CONFIG = 0 ∧
        ∃ funct ∈ (m.halpr_find_funct_by_name funct_name).toList, funct ≠ 0 ∧
          m.halpr_find_thread_by_name thread_name = some thread ∧
          find_entry m (thread + THREAD_FUNCT_LIST) funct FUEL
            (m.arena.links.next (thread + THREAD_FUNCT_LIST)) = some (some e))
        (by simp [Removes, and_left_comm])
  | .hal_exit comp_id =>
      decidable_of_iff (m.state ≠ .destroyed ∧
        ∃ comp ∈ (m.halpr_find_comp_by_id comp_id).toList, comp ≠ 0 ∧
          (m.funct (m.entry e).funct_ptr).owner_ptr = comp)
        (by simp [Removes, and_comm])
  | .hal_del_funct_from_thread none _ | .hal_del_funct_from_thread (some _) none
  | .hal_init _ | .hal_malloc _ | .hal_set_constructor _ _ | .hal_ready _ | .hal_unready _
  | .hal_set_unready _ | .hal_comp_name _ | .hal_export_funct _ _ _ _ _ _
  | .hal_create_thread _ _ _ _ | .hal_thread_delete _ | .hal_add_funct_to_thread _ _ _
  | .hal_param_new _ _ _ _ _ | .hal_pin_new _ _ _ _ | .hal_get_stats _ | .hal_set_lock _
  | .hal_get_lock | .hal_start_threads | .hal_stop_threads | .hal_get_state | .teardown =>
      .isFalse id

section
variable {R : Rtapi σ} {s s' : State σ} {L : Lists} {t e : Nat} {op : Op}

/-- The search of `hal_del_funct_from_thread` in the ring of a thread. -/
theorem find_entry_ring (h : Shape s.shm.arena L) (ht : t ∈ L.act .thread) (f : Nat) :
    find_entry s.shm (t + THREAD_FUNCT_LIST) f FUEL
        (s.shm.arena.links.next (t + THREAD_FUNCT_LIST)) =
      some ((L.ring (t + THREAD_FUNCT_LIST)).find? fun e => (s.shm.entry e).funct_ptr = f) := by
  have hr : t + THREAD_FUNCT_LIST ∈ L.roots := Shape.thread_root (.inl ht)
  rw [h.next_root hr]
  exact find_entry_eq h hr f (List.nil_append _).symm (h.ring_short hr)

/-- The events of an addition. -/
theorem add_funct_edits {funct_name thread_name : Option CStr} {new : Nat} {p : Int} {ev : Event}
    (hev : ev ∈ ((view s.shm L).add_funct s.shm.lock new funct_name thread_name p).2) :
    ev.Edits ∧ ∀ t e r, ¬ ev.Takes t e r := by
  unfold Registry.add_funct at hev
  split_ifs at hev
  · exact absurd hev List.not_mem_nil
  split at hev
  swap
  · exact absurd hev List.not_mem_nil
  split_ifs at hev
  · exact absurd hev List.not_mem_nil
  · exact absurd hev List.not_mem_nil
  split at hev
  · exact absurd hev List.not_mem_nil
  · rw [List.mem_singleton.mp hev]
    exact ⟨trivial, fun _ _ _ => id⟩

/-- The events of a deletion. -/
theorem del_funct_edits (h : Inv s L) {funct_name thread_name : Option CStr} {ev : Event}
    (hev : ev ∈ ((view s.shm L).del_funct s.shm.lock funct_name thread_name).2) :
    ev.Edits ∧ ∀ t e, (∀ r, ¬ ev.Puts t e r) ∧ (ev.Takes t e (s.shm.entry e) →
      Op.Removes s.shm t e (.hal_del_funct_from_thread funct_name thread_name)) := by
  unfold Registry.del_funct at hev
  split_ifs at hev with hl
  · exact absurd hev List.not_mem_nil
  split at hev
  swap
  · exact absurd hev List.not_mem_nil
  rename_i f fr u hfind hthread
  split at hev
  · exact absurd hev List.not_mem_nil
  rename_i e' r' hentry
  obtain rfl := List.mem_singleton.mp hev
  refine ⟨trivial, fun t e => ⟨fun _ => id, fun htakes => ?_⟩⟩
  obtain ⟨rfl, rfl⟩ := htakes
  rcases funct_name with _ | fname
  · cases hfind
  rcases thread_name with _ | tname
  · cases hthread
  simp only [Option.bind_some] at hfind hthread
  rcases find_funct_cases h.good.shape fname with ⟨-, hv⟩ | ⟨f', -, hf0, hf, hv, -⟩
  · rw [hv] at hfind
    cases hfind
  rcases find_thread_cases h.good.shape tname with ⟨-, hv'⟩ | ⟨t', ht', -, ht, hv', -⟩
  · rw [hv'] at hthread
    cases hthread
  rw [hv] at hfind
  rw [hv'] at hthread
  cases hfind
  cases hthread
  refine ⟨not_not.mp hl, f, hf0, hf, ht, ?_⟩
  rw [slot_off, find_entry_ring h.good.shape ht']
  rw [slot_entries, tab, List.find?_map] at hentry
  obtain ⟨e, he, hee⟩ := Option.map_eq_some_iff.mp hentry
  cases hee
  exact congrArg some he

theorem dropFunct_mem_leave {g : Registry} {x y : Nat} :
    .dropFunct y ∈ g.leave x ↔ ∃ f, (y, f) ∈ g.functs ∧ f.owner_ptr = x := by
  simp [Registry.leave]

/-- The events of an exit. -/
theorem exit_edits (h : Inv s L) {comp_id : Int} {ev : Event}
    (hev : ev ∈ ((view s.shm L).exit s.shm.state comp_id).2) :
    ev.Edits ∧ ∀ t e, (∀ r, ¬ ev.Puts t e r) ∧ (ev.Takes t e (s.shm.entry e) →
      Op.Removes s.shm t e (.hal_exit comp_id)) := by
  unfold Registry.exit at hev
  split_ifs at hev with hst
  · exact absurd hev List.not_mem_nil
  rcases find_comp_cases h.good.shape comp_id with ⟨-, hv⟩ | ⟨x, -, hx0, hf, hv, -⟩
  · rw [hv] at hev
    exact absurd hev List.not_mem_nil
  rw [hv] at hev
  rcases leave_cases hev with ⟨y, rfl⟩ | ⟨y, rfl⟩ | rfl
  · refine ⟨trivial, fun t e => ⟨fun _ => id, fun htakes => ⟨hst, x, hx0, hf, ?_⟩⟩⟩
    obtain ⟨f, hfm, howner⟩ := dropFunct_mem_leave.mp hev
    rw [show (s.shm.entry e).funct_ptr = y from htakes]
    rwa [show f = s.shm.funct y from (mem_tab.mp hfm).2] at howner
  · exact ⟨trivial, fun t e => ⟨fun _ => id, False.elim⟩⟩
  · exact ⟨trivial, fun t e => ⟨fun _ => id, False.elim⟩⟩

/-- **The calls, as events.**  They take only the entries that they remove. -/
theorem Op.reconfigured (h : Inv s L) (hop : op.Reconfigures) (hrun : op.run R s = .ok () s') :
    ∃ evs L', Moved s L evs s' L' ∧ Quiet s s' ∧ (∀ ev ∈ evs, ev.Edits) ∧
      ∀ t e, ∀ ev ∈ evs, ev.Takes t e (s.shm.entry e) → op.Removes s.shm t e := by
  cases op with
  | hal_add_funct_to_thread funct_name thread_name position =>
      obtain ⟨r, hr⟩ := ok_of_ignored hrun
      obtain ⟨-, -, L', hm, hs⟩ :=
        (hal_add_funct_spec h funct_name thread_name position rfl).of_ok hr
      refine ⟨_, L', hm, hs.toQuiet, fun ev hev => (add_funct_edits hev).1, fun t e ev hev ht => ?_⟩
      exact ((add_funct_edits hev).2 t e _ ht).elim
  | hal_del_funct_from_thread funct_name thread_name =>
      obtain ⟨r, hr⟩ := ok_of_ignored hrun
      obtain ⟨-, L', hm, hs⟩ := (hal_del_funct_refines h funct_name thread_name).of_ok hr
      refine ⟨_, L', hm, hs.toQuiet, fun ev hev => (del_funct_edits h hev).1, fun t e ev hev => ?_⟩
      exact ((del_funct_edits h hev).2 t e).2
  | hal_exit comp_id =>
      obtain ⟨r, hr⟩ := ok_of_ignored hrun
      obtain ⟨-, ⟨L', hm⟩, hq, -⟩ := (hal_exit_spec R h comp_id).of_ok hr
      refine ⟨_, L', hm, hq, fun ev hev => (exit_edits h hev).1, fun t e ev hev => ?_⟩
      exact ((exit_edits h hev).2 t e).2
  | _ => cases hop

/-- An entry that a call removes is taken by one of its events, and none puts it back. -/
theorem removes_takes (h : Inv s L) (ht : t ∈ L.act .thread)
    (he : e ∈ L.ring (t + THREAD_FUNCT_LIST)) (hrem : op.Removes s.shm t e)
    (hrun : op.run R s = .ok () s') :
    ∃ evs L', Moved s L evs s' L' ∧ (∀ ev ∈ evs, ev.Edits ∧ ∀ r, ¬ ev.Puts t e r) ∧
      ∃ ev ∈ evs, ev.Takes t e (s.shm.entry e) := by
  have hfunct : ∃ f ∈ (view s.shm L).functs, f.1 = (s.shm.entry e).funct_ptr := by
    obtain ⟨p, hp, hpe, -⟩ := h.good.sound.linked (e, s.shm.entry e)
      (mem_entries.mpr ⟨t, ht, he, rfl⟩)
    exact ⟨p, hp, hpe⟩
  cases op with
  | hal_del_funct_from_thread funct_name thread_name =>
      obtain ⟨r, hr⟩ := ok_of_ignored hrun
      obtain ⟨-, L', hm, hs⟩ := (hal_del_funct_refines h funct_name thread_name).of_ok hr
      refine ⟨_, L', hm, fun ev hev => ⟨(del_funct_edits h hev).1, ((del_funct_edits h hev).2 t e).1⟩,
        .unschedule t e (s.shm.entry e).funct_ptr, ?_, rfl, rfl⟩
      rcases funct_name with _ | fname
      · exact hrem.elim
      rcases thread_name with _ | tname
      · exact hrem.elim
      obtain ⟨hl, f, hf0, hf, hth, hfind⟩ := hrem
      rcases find_funct_cases h.good.shape fname with ⟨hf', -⟩ | ⟨f', -, -, hf', hv, -⟩
      · exact absurd (Option.some.inj (hf.symm.trans hf')) hf0
      rcases find_thread_cases h.good.shape tname with ⟨ht', -⟩ | ⟨t', -, -, ht', hv', -⟩
      · exact absurd (Option.some.inj (hth.symm.trans ht')) (h.good.shape.act_ne_zero ht)
      obtain rfl : f = f' := Option.some.inj (hf.symm.trans hf')
      obtain rfl : t = t' := Option.some.inj (hth.symm.trans ht')
      rw [find_entry_ring h.good.shape ht] at hfind
      have hcall := List.find?_some (Option.some.inj hfind)
      unfold Registry.del_funct
      rw [if_neg (not_not_intro hl)]
      simp only [Option.bind_some, hv, hv', slot_entries, tab, List.find?_map, Function.comp_def,
        Option.some.inj hfind, Option.map_some]
      rw [of_decide_eq_true hcall]
      exact List.mem_singleton.mpr rfl
  | hal_exit comp_id =>
      obtain ⟨r, hr⟩ := ok_of_ignored hrun
      obtain ⟨-, ⟨L', hm⟩, -, -⟩ := (hal_exit_spec R h comp_id).of_ok hr
      refine ⟨_, L', hm, fun ev hev => ⟨(exit_edits h hev).1, ((exit_edits h hev).2 t e).1⟩,
        .dropFunct (s.shm.entry e).funct_ptr, ?_, rfl⟩
      obtain ⟨hst, x, hx0, hf, howner⟩ := hrem
      rcases find_comp_cases h.good.shape comp_id with ⟨hf', -⟩ | ⟨x', -, -, hf', hv, -⟩
      · exact absurd (Option.some.inj (hf.symm.trans hf')) hx0
      obtain rfl : x = x' := Option.some.inj (hf.symm.trans hf')
      obtain ⟨⟨f, fr⟩, hfm, hfe⟩ := hfunct
      rw [← hfe] at howner ⊢
      rw [Registry.exit, if_neg hst, hv]
      refine dropFunct_mem_leave.mpr ⟨fr, hfm, ?_⟩
      rwa [show fr = s.shm.funct f from (mem_tab.mp hfm).2]
  | _ => exact hrem.elim

/-! ### Rings -/

/-- The entry is on the ring of the root. -/
def Segment.OnRing (m : Segment) (root e : Nat) : Prop :=
  ∃ es, Ring m.arena.links root es ∧ root ∉ es ∧ e ∈ es

theorem Shape.onRing {m : Segment} {r : Nat} (h : Shape m.arena L) (hr : r ∈ L.roots) :
    m.OnRing r e ↔ e ∈ L.ring r := by
  have hnot := (List.nodup_cons.mp (h.rings.nodup r hr)).1
  constructor
  · rintro ⟨es, hes, hres, he⟩
    rwa [← Arc.unique hes (h.rings.closed r hr) hres hnot]
  · exact fun he => ⟨_, h.rings.closed r hr, hnot, he⟩

theorem onRing_view {m : Segment} (h : Shape m.arena L) (ht : t ∈ L.act .thread) :
    m.OnRing (t + THREAD_FUNCT_LIST) e ↔ (e, m.entry e) ∈ (view m L).entriesOf t := by
  rw [h.onRing (Shape.thread_root (.inl ht)), mem_entriesOf_view]
  exact ⟨fun he => ⟨ht, he, rfl⟩, fun he => he.2.1⟩

theorem offs_view (m : Segment) (L : Lists) : (view m L).threads.map Slot.off = L.act .thread := by
  simp [view, Function.comp_def]

/-- The events of the calls keep the threads. -/
theorem Moved.act_thread {evs : List Event} {L' : Lists} (hm : Moved s L evs s' L')
    (hevs : ∀ ev ∈ evs, ev.Edits) : L'.act .thread = L.act .thread := by
  rw [← offs_view s'.shm, hm.events, Registry.offs_heads, (Registry.applyAll_edits hevs).1,
    ← Registry.offs_heads, offs_view]

/-- **Which calls remove an entry.** -/
theorem removes_iff (h : Inv s L) (ht : t ∈ L.act .thread)
    (he : s.shm.OnRing (t + THREAD_FUNCT_LIST) e) (hop : op.Reconfigures)
    (hrun : op.run R s = .ok () s') :
    s'.shm.OnRing (t + THREAD_FUNCT_LIST) e ↔ ¬ op.Removes s.shm t e := by
  have hshape := h.good.shape
  have hoff : t ∈ (view s.shm L).threads.map Slot.off := by rwa [offs_view]
  have hview := (onRing_view hshape ht).mp he
  constructor
  · intro he' hrem
    obtain ⟨evs, L', hm, hevs, ev, hev, htakes⟩ :=
      removes_takes h ht ((hshape.onRing (Shape.thread_root (.inl ht))).mp he) hrem hrun
    have ht' : t ∈ L'.act .thread := by rwa [hm.act_thread fun ev hev => (hevs ev hev).1]
    have hview' := (onRing_view hm.inv.good.shape ht').mp he'
    rw [hm.events] at hview'
    obtain ⟨h₀, hn⟩ := Registry.mem_entriesOf_of_applyAll
      (fun ev hev => ⟨(hevs ev hev).1, (hevs ev hev).2 _⟩) hoff hview'
    rw [(mem_entriesOf_view.mp h₀).2.2] at hn
    exact hn ev hev htakes
  · intro hn
    obtain ⟨evs, L', hm, -, hevs, htakes⟩ := op.reconfigured h hop hrun
    have hkept := Registry.mem_entriesOf_kept hevs hoff hview fun ev hev htk =>
      hn (htakes t e ev hev htk)
    rw [← hm.events] at hkept
    obtain ⟨ht', he', -⟩ := mem_entriesOf_view.mp hkept
    exact (hm.inv.good.shape.onRing (Shape.thread_root (.inl ht'))).mpr he'

end

/-! ### The cycle and the calls -/

/-- A cycle of a thread: HAL, the variable `funct_entry`, which is `none` when the loop was left
with `break`, and the entries called so far, newest first, each with the segment it was called
in. -/
structure Traversal (σ : Type) where
  hal : State σ
  funct_entry : Option Nat
  turns : List (Nat × Segment) := []

namespace Traversal

inductive Act where
  | turn (code : Addr → Addr → Int → (Addr → Int) → (Addr → Int))
  | op (op : Op)

variable (thread : Nat)

/-- The cycle begins: the threads run, and the first entry is read. -/
def enter (s : State σ) : Option (Traversal σ) :=
  if s.shm.threads_running > 0 then
    some { hal := s, funct_entry := some (s.shm.arena.links.next (thread + THREAD_FUNCT_LIST)) }
  else none

/-- At the root the loop is over. -/
def step : Act → Traversal σ → Option (Traversal σ)
  | .turn code, w =>
      match w.funct_entry with
      | none => none
      | some e =>
          if e = thread + THREAD_FUNCT_LIST then none
          else
            match run_funct R code thread e w.hal with
            | .error _ _ => none
            | .ok r s => some
                { hal := s, funct_entry := r.2, turns := (e, w.hal.shm) :: w.turns }
  | .op op, w =>
      match op.run R w.hal with
      | .error _ _ => none
      | .ok _ s => some { w with hal := s }

/-- Any of the three calls. -/
def Reconfigured (_ : Traversal σ) : Act → Prop
  | .turn _ => True
  | .op op => op.Reconfigures

instance Reconfigured.decidable (w : Traversal σ) : (a : Act) → Decidable (Reconfigured w a)
  | .turn _ => .isTrue trivial
  | .op op => inferInstanceAs (Decidable (op.Reconfigures = true))

/-- One of the three calls, and it does not remove the entry the cycle stands on. -/
def Spares (w : Traversal σ) : Act → Prop
  | .turn _ => True
  | .op op => op.Reconfigures ∧ ∀ e, w.funct_entry = some e → e ≠ thread + THREAD_FUNCT_LIST →
      ¬ op.Removes w.hal.shm thread e

instance Spares.decidable (w : Traversal σ) : (a : Act) → Decidable (Spares thread w a)
  | .turn _ => .isTrue trivial
  | .op op => decidable_of_iff (op.Reconfigures ∧ ∀ e ∈ w.funct_entry.toList,
      e ≠ thread + THREAD_FUNCT_LIST → ¬ op.Removes w.hal.shm thread e) (by simp [Spares])

/-- The cycle that began in `s` is on the ring of the thread or back at the root, and so was every
entry that it called, with a function; and it comes to the root when it is left alone. -/
structure Safe (s : State σ) (w : Traversal σ) : Prop where
  on_ring : ∃ e, w.funct_entry = some e ∧
    (e = thread + THREAD_FUNCT_LIST ∨ w.hal.shm.OnRing (thread + THREAD_FUNCT_LIST) e) ∧
    e ≠ FUNCT_ENTRY_FREE ∧ ¬ w.hal.shm.OnRing FUNCT_ENTRY_FREE e
  called : ∀ p ∈ w.turns, p.2.OnRing (thread + THREAD_FUNCT_LIST) p.1 ∧ (p.2.entry p.1).funct ≠ 0
  calls : w.hal.calls =
    w.turns.map (fun p => call_of (p.2.thread thread) (p.2.entry p.1)) ++ s.calls
  ends : ∃ n, ∀ codes : List _, codes.length = n → ∃ w',
    acted (step R thread) (codes.map .turn) w = some w' ∧
      w'.funct_entry = some (thread + THREAD_FUNCT_LIST)

variable {R thread} {s : State σ} {w w' : Traversal σ} {L : Lists}

/-- What every step keeps. -/
structure Walks (thread : Nat) (s : State σ) (w : Traversal σ) (L : Lists) : Prop where
  inv : Inv w.hal L
  listed : thread ∈ L.act .thread
  functs : ∀ f ∈ L.act .funct, (w.hal.shm.funct f).funct ≠ 0
  cursor : ∃ e, w.funct_entry = some e ∧
    (e = thread + THREAD_FUNCT_LIST ∨ e ∈ L.ring (thread + THREAD_FUNCT_LIST))
  called : ∀ p ∈ w.turns, p.2.OnRing (thread + THREAD_FUNCT_LIST) p.1 ∧ (p.2.entry p.1).funct ≠ 0
  calls : w.hal.calls =
    w.turns.map (fun p => call_of (p.2.thread thread) (p.2.entry p.1)) ++ s.calls

namespace Walks

/-- A listed entry calls a function that is there. -/
theorem entry_funct (h : Walks thread s w L) {e : Nat}
    (he : e ∈ L.ring (thread + THREAD_FUNCT_LIST)) :
    (w.hal.shm.entry e).funct_ptr ≠ 0 ∧ (w.hal.shm.entry e).funct ≠ 0 := by
  obtain ⟨⟨f, fr⟩, hp, hpe, -, hpf⟩ := h.inv.good.sound.linked (e, w.hal.shm.entry e)
    (mem_entries.mpr ⟨thread, h.listed, he, rfl⟩)
  obtain ⟨hf, hfr⟩ := mem_tab.mp hp
  refine ⟨?_, ?_⟩
  · rw [← hpe]
    exact h.inv.good.shape.act_ne_zero hf
  · rw [← hpf, hfr]
    exact h.functs f hf

/-- Past the entry, on to the next one. -/
theorem turn (h : Walks thread s w L) {e : Nat} {xs ys : List Nat} (hw : w.funct_entry = some e)
    (hs : L.ring (thread + THREAD_FUNCT_LIST) = xs ++ e :: ys)
    (code : Addr → Addr → Int → (Addr → Int) → (Addr → Int)) :
    ∃ w', step R thread (.turn code) w = some w' ∧ Walks thread s w' L ∧
      w'.funct_entry = some (ys.headD (thread + THREAD_FUNCT_LIST)) := by
  have hroot : thread + THREAD_FUNCT_LIST ∈ L.roots := Shape.thread_root (.inl h.listed)
  have he : e ∈ L.ring (thread + THREAD_FUNCT_LIST) := by simp [hs]
  have hne : e ≠ thread + THREAD_FUNCT_LIST := fun hee =>
    (List.nodup_cons.mp (h.inv.good.shape.rings.nodup _ hroot)).1 (hee ▸ he)
  obtain ⟨hptr, hfunct⟩ := h.entry_funct he
  obtain ⟨⟨end_time, next⟩, _, hrun, hnext, data, rt, rfl⟩ :=
    (run_funct_spec R code h.inv.good.shape hroot hs hptr hfunct).exists_ok
  obtain rfl := hnext
  have hstep : step R thread (.turn code) w = some
      { hal := w.hal.ran [call_of (w.hal.shm.thread thread) (w.hal.shm.entry e)] data rt
        funct_entry := some (ys.headD (thread + THREAD_FUNCT_LIST))
        turns := (e, w.hal.shm) :: w.turns } := by
    simp only [step, hw, if_neg hne, hrun]
  refine ⟨_, hstep, ?_, rfl⟩
  exact
    { inv := h.inv.ran ..
      listed := h.listed
      functs := h.functs
      cursor := by
        refine ⟨_, rfl, ?_⟩
        rcases ys with _ | ⟨y, ys⟩
        · exact .inl rfl
        · exact .inr (by simp [hs])
      called := List.forall_mem_cons.mpr
        ⟨⟨(h.inv.good.shape.onRing hroot).mpr he, hfunct⟩, h.called⟩
      calls := congrArg (List.cons _) h.calls }

/-- The entries still to come are as many as there are steps to the root. -/
theorem ends (h : Walks thread s w L) : ∃ n, ∀ codes : List _, codes.length = n → ∃ w',
    acted (step R thread) (codes.map .turn) w = some w' ∧
      w'.funct_entry = some (thread + THREAD_FUNCT_LIST) := by
  have hrest : ∀ (ys xs : List Nat) (w : Traversal σ), Walks thread s w L →
      L.ring (thread + THREAD_FUNCT_LIST) = xs ++ ys →
      w.funct_entry = some (ys.headD (thread + THREAD_FUNCT_LIST)) →
      ∀ codes : List _, codes.length = ys.length → ∃ w',
        acted (step R thread) (codes.map .turn) w = some w' ∧
          w'.funct_entry = some (thread + THREAD_FUNCT_LIST) := by
    intro ys
    induction ys with
    | nil =>
        intro xs w h hs hw codes hlen
        obtain rfl := List.length_eq_zero_iff.mp hlen
        exact ⟨w, rfl, hw⟩
    | cons y ys ih =>
        intro xs w h hs hw codes hlen
        obtain ⟨code, codes, rfl⟩ := List.exists_cons_of_length_eq_add_one hlen
        obtain ⟨w₁, hstep, h₁, hw₁⟩ := h.turn (R := R) hw hs code
        obtain ⟨w', hacted, hw'⟩ := ih (xs ++ [y]) w₁ h₁ (by simp [hs]) hw₁ codes (by simpa using hlen)
        exact ⟨w', by simp [acted, hstep, hacted], hw'⟩
  obtain ⟨e, hw, rfl | he⟩ := h.cursor
  · exact ⟨0, hrest [] _ w h (List.append_nil _).symm hw⟩
  · obtain ⟨xs, ys, hs⟩ := List.append_of_mem he
    exact ⟨_, hrest (e :: ys) xs w h hs hw⟩

theorem safe (h : Walks thread s w L) : Safe R thread s w where
  on_ring := by
    have hroot : thread + THREAD_FUNCT_LIST ∈ L.roots := Shape.thread_root (.inl h.listed)
    have hshape := h.inv.good.shape
    have hne : thread + THREAD_FUNCT_LIST ≠ FUNCT_ENTRY_FREE :=
      hshape.mem.root_ne_free (hshape.carved_thread (.inl h.listed))
    have hapart := hshape.rings.apart _ hroot _ Shape.free_root hne
    obtain ⟨e, hw, he⟩ := h.cursor
    have hmem : e ∈ (thread + THREAD_FUNCT_LIST) :: L.ring (thread + THREAD_FUNCT_LIST) :=
      List.mem_cons.mpr he
    refine ⟨e, hw, he.imp id (hshape.onRing hroot).mpr, ?_, ?_⟩
    · exact fun hee => hapart hmem (by simp [hee])
    · rw [hshape.onRing Shape.free_root]
      exact fun hee => hapart hmem (List.mem_cons_of_mem _ hee)
  called := h.called
  calls := h.calls
  ends := h.ends

theorem op {op : Op} (h : Walks thread s w L) (hop : op.Reconfigures)
    (hn : ∀ e, w.funct_entry = some e → e ≠ thread + THREAD_FUNCT_LIST →
      ¬ op.Removes w.hal.shm thread e) {s' : State σ} (hrun : op.run R w.hal = .ok () s') :
    ∃ L', Walks thread s { w with hal := s' } L' := by
  obtain ⟨evs, L', hm, hq, hevs, -⟩ := op.reconfigured h.inv hop hrun
  have hlisted : thread ∈ L'.act .thread := by
    rw [hm.act_thread hevs]
    exact h.listed
  refine ⟨L', ?_⟩
  exact
    { inv := hm.inv
      listed := hlisted
      functs := by
        intro f hf
        obtain ⟨q, hq, -, hqf⟩ := (Registry.applyAll_edits hevs).2 (f, s'.shm.funct f)
          (by rw [← hm.events]; exact mem_tab.mpr ⟨hf, rfl⟩)
        obtain ⟨hqa, hqe⟩ := mem_tab.mp hq
        rw [← hqf, hqe]
        exact h.functs _ hqa
      cursor := by
        obtain ⟨e, hw, he⟩ := h.cursor
        refine ⟨e, hw, ?_⟩
        by_cases hroot : e = thread + THREAD_FUNCT_LIST
        · exact .inl hroot
        have hon := (h.inv.good.shape.onRing (Shape.thread_root (.inl h.listed))).mpr
          (he.resolve_left hroot)
        exact .inr ((hm.inv.good.shape.onRing (Shape.thread_root (.inl hlisted))).mp
          ((removes_iff h.inv h.listed hon hop hrun).mpr (hn e hw hroot)))
      called := h.called
      calls := by
        rw [← h.calls]
        exact hq.calls }

/-- **One step.** -/
theorem step {a : Act} (h : Walks thread s w L) (ha : Spares thread w a)
    (hstep : Traversal.step R thread a w = some w') : ∃ L', Walks thread s w' L' := by
  cases a with
  | turn code =>
      obtain ⟨e, hw, rfl | he⟩ := h.cursor
      · simp [Traversal.step, hw] at hstep
      · obtain ⟨xs, ys, hs⟩ := List.append_of_mem he
        obtain ⟨w₁, hstep₁, h₁, -⟩ := h.turn (R := R) hw hs code
        cases hstep.symm.trans hstep₁
        exact ⟨L, h₁⟩
  | op op =>
      obtain ⟨hop, hn⟩ := ha
      simp only [Traversal.step] at hstep
      cases hrun : op.run R w.hal with
      | ok r s' =>
          rw [hrun] at hstep
          cases hstep
          exact h.op hop hn hrun
      | error e s' =>
          rw [hrun] at hstep
          cases hstep

end Walks

/-- **A cycle is safe while no call removes the entry it stands on.** -/
theorem traversal_safe (h : Reachable R s) (ht : s.shm.Listed .thread thread)
    (hf : ∀ f, s.shm.Listed .funct f → (s.shm.funct f).funct ≠ 0) {w₀ : Traversal σ}
    (hw₀ : enter thread s = some w₀)
    (hw : Reached (Traversal.step R thread) (Spares thread) w₀ w) : Safe R thread s w := by
  obtain ⟨L, hinv⟩ := h.inv
  have hshape := hinv.good.shape
  have hlisted := hshape.listed.mp ht
  have hroot : thread + THREAD_FUNCT_LIST ∈ L.roots := Shape.thread_root (.inl hlisted)
  unfold enter at hw₀
  split_ifs at hw₀
  obtain rfl := Option.some.inj hw₀
  have hstart : Walks thread s
      { hal := s, funct_entry := some (s.shm.arena.links.next (thread + THREAD_FUNCT_LIST)) } L :=
    { inv := hinv
      listed := hlisted
      functs := fun f hfl => hf f (hshape.listed.mpr hfl)
      cursor := by
        refine ⟨_, rfl, ?_⟩
        rw [hshape.next_root hroot]
        rcases L.ring (thread + THREAD_FUNCT_LIST) with _ | ⟨y, ys⟩
        · exact .inl rfl
        · exact .inr (by simp)
      called := fun _ h => absurd h List.not_mem_nil
      calls := rfl }
  obtain ⟨L', hw⟩ := hw.invariant (I := fun w => ∃ L, Walks thread s w L) ⟨L, hstart⟩
    fun w a w' ⟨L, h⟩ ha hstep => h.step ha hstep
  exact hw.safe

/-! ### Cycles that compute -/

/-- The threads of `scheduled` run. -/
def running : State Machine := played (rtapi serving) [.hal_start_threads] scheduled

theorem running_reachable : Reachable (rtapi serving) running :=
  have ⟨s₀, s₁, hb, hr⟩ := scheduled_reachable
  have hplay : Playable (rtapi serving) (fun _ _ => True) [.hal_start_threads] scheduled :=
    ⟨trivial, trivial, by decide +kernel, trivial⟩
  ⟨s₀, s₁, hb, hplay.runs hr⟩

/-- Its thread. -/
def runner : Nat := (running.shm.arena.pool .thread).list_ptr

theorem runner_listed : running.shm.Listed .thread runner :=
  (Segment.listed_one (by decide +kernel) (by decide +kernel)).mpr rfl

theorem running_functs (f : Nat) (hf : running.shm.Listed .funct f) :
    (running.shm.funct f).funct ≠ 0 := by
  rw [(Segment.listed_one (by decide +kernel) (by decide +kernel)).mp hf]
  decide +kernel

/-- Function code that leaves memory as it is. -/
def still (_ _ : Addr) (_ : Int) (data : Addr → Int) : Addr → Int := data

/-- The cycle begins. -/
def entered : Traversal Machine :=
  { hal := running
    funct_entry := some (running.shm.arena.links.next (runner + THREAD_FUNCT_LIST)) }

theorem enter_running : enter runner running = some entered :=
  if_pos (show running.shm.threads_running > 0 by decide +kernel)

def del_f : Op := .hal_del_funct_from_thread (some (lit ['f'])) (some (lit ['t']))

def add_f : Op := .hal_add_funct_to_thread (some (lit ['f'])) (some (lit ['t'])) (-1)

/-- Where a run from there ends. -/
def ends (as : List Act) : Traversal Machine :=
  (acted (Traversal.step (rtapi serving) runner) as entered).getD entered

theorem acted_ends {as : List Act}
    (h : (acted (Traversal.step (rtapi serving) runner) as entered).isSome) :
    acted (Traversal.step (rtapi serving) runner) as entered = some (ends as) := by
  obtain ⟨w, hw⟩ := Option.isSome_iff_exists.mp h
  unfold ends
  rw [hw]
  rfl

/-- A second entry is added, and the first one is deleted when the cycle is past it. -/
def movedPast : List Act := [.op add_f, .turn still, .op del_f, .turn still]

theorem traversal_safe_sample : Safe (rtapi serving) runner running (ends movedPast) ∧
    (ends movedPast).turns.length = 2 := by
  have hw := acted_ends (show (acted _ movedPast entered).isSome by decide +kernel)
  have hmeets : Meets (Traversal.step (rtapi serving) runner) (Spares runner) movedPast entered := by
    decide +kernel
  exact ⟨traversal_safe running_reachable runner_listed running_functs enter_running
    (.of_acted hw hmeets), by decide +kernel⟩

/-- The entry is deleted while the cycle stands on it, and cleared: the cycle would call a null
pointer. -/
def removedUnder : List Act := [.op del_f]

theorem removedUnder_unsafe : ¬ ∀ (s : State Machine) (t : Nat) (w₀ w : Traversal Machine),
    Reachable (rtapi serving) s → s.shm.state = .running → s.shm.Listed .thread t →
    (∀ f, s.shm.Listed .funct f → (s.shm.funct f).funct ≠ 0) → enter t s = some w₀ →
    Reached (Traversal.step (rtapi serving) t) Reconfigured w₀ w → Safe (rtapi serving) t s w := by
  intro h
  have hw := acted_ends (show (acted _ removedUnder entered).isSome by decide +kernel)
  have hmeets : Meets (Traversal.step (rtapi serving) runner) Reconfigured removedUnder entered := by
    decide +kernel
  have hsafe := h running runner entered _ running_reachable (by decide +kernel) runner_listed
    running_functs enter_running (.of_acted hw hmeets)
  -- the cycle is not at its root, and cannot go on
  have hstuck : (Traversal.step (rtapi serving) runner (.turn still) (ends removedUnder)).isNone := by
    decide +kernel
  have haway : (ends removedUnder).funct_entry ≠ some (runner + THREAD_FUNCT_LIST) := by
    decide +kernel
  obtain ⟨n, hn⟩ := hsafe.ends
  obtain ⟨w, hw, hroot⟩ := hn (List.replicate n still) List.length_replicate
  cases n with
  | zero =>
      obtain rfl : ends removedUnder = w := Option.some.inj hw
      exact haway hroot
  | succ n =>
      rw [List.replicate_succ, List.map_cons, acted, Option.isNone_iff_eq_none.mp hstuck] at hw
      cases hw

end Traversal

end RTS.Hal

import RealTimeSystem.Hal.Creation

/-!
# HAL — threads are deleted, and HAL is taken down

`hal_thread_delete` calls `hal_exit` for the component of the thread while it holds the mutex, and
`hal_exit` asks for the mutex: on a thread that has a component it never returns
(`Registry.delete` is `none`).  `hal_app_teardown` deletes every thread, and leaves the components of
the threads.
-/

namespace RTS.Hal

open RTS.Support

variable {σ : Type} (R : Rtapi σ)

/-! ### `hal_thread_delete` -/

/-- `hal_thread_delete` on the registry; `none` when it does not return. -/
def Registry.delete (g : Registry) (lock : UInt8) (state : HalState) (name : CStr) :
    Option (Int × List Event) :=
  if lock &&& HAL_LOCK_CONFIG ≠ 0 then some (-EPERM, [])
  else if state ≠ .active ∧ state ≠ .running then some (-EINVAL, [])
  else
    match g.findThread name with
    | none => some (-EINVAL, [])
    | some t => if t.thread.comp_id ≠ 0 then none else some (0, [.dropThread t.off])

/-- `hal_exit` asks for a mutex that is held. -/
theorem wp_hal_exit_held {s : State σ} (h₀ : s.hal_data ≠ 0) (hd : s.shm.state ≠ .destroyed)
    (hm : s.shm.mutex = true) (comp_id : Int) {Q : Int → State σ → Prop}
    {E : Stop → State σ → Prop} (hE : ∀ s', E .deadlock s') : Wp (hal_exit R comp_id) s Q E := by
  unfold hal_exit
  simp only [wp_bind, wp_get]
  refine .ite (fun e => absurd e h₀) fun _ => .ite (fun e => absurd e hd) fun _ => ?_
  unfold rtapi_mutex_get
  simp only [wp_bind, wp_get]
  refine .ite (fun e => absurd e h₀) fun _ => ?_
  simp only [wp_bind, wp_modify]
  exact .ite (fun _ => hE _) fun e => absurd hm e

/-- The thread that a walk found first is the one the registry has under its name. -/
theorem findThread_split {m : Segment} {L : Lists} {t : Nat} {xs ys : List Nat} {name : CStr}
    (hs : L.act .thread = xs ++ t :: ys) (ht : (m.thread t).name = name)
    (hxs : ∀ z ∈ xs, (m.thread z).name ≠ name) :
    (view m L).findThread name = some (slot m L t) := by
  have hnone : (xs.map (slot m L)).find? (fun s => s.thread.name = name) = none :=
    List.find?_eq_none.mpr fun s hs => by
      obtain ⟨z, hz, rfl⟩ := List.mem_map.mp hs
      exact fun e => hxs z hz (of_decide_eq_true e)
  simp [Registry.findThread, view, hs, hnone, ht]

/-- **`hal_thread_delete`.**  It is the abstract operation where that one is defined, and never
returns where it is not; the task of a thread that goes is paused and deleted. -/
theorem hal_thread_delete_unmakes {s : State σ} {L : Lists} (h : Inv s L) (name : CStr) :
    Wp (hal_thread_delete R name) s
      (fun r s' => ∃ spec, (view s.shm L).delete s.shm.lock s.shm.state name = some spec ∧
        r = spec.1 ∧ ∃ L', Moved s L spec.2 s' L' ∧
          ((spec.2 = [] ∧ s'.rt = s.rt) ∨ ∃ t ∈ L.act .thread, spec.2 = [.dropThread t] ∧
            s'.rt = unmake R (s.shm.thread t).task_id s.rt))
      fun e _ => e = .deadlock ∧ (view s.shm L).delete s.shm.lock s.shm.state name = none := by
  unfold hal_thread_delete
  simp only [wp_bind, wp_get]
  refine .ite (fun h₀ => absurd h₀ h.attached) fun _ => ?_
  unfold Registry.delete
  refine .ite (fun hl => ⟨_, if_pos hl, rfl, L, .refl h, .inl ⟨rfl, rfl⟩⟩) fun hl => ?_
  rw [if_neg hl]
  refine .ite (fun hst => ⟨_, if_pos hst, rfl, L, .refl h, .inl ⟨rfl, rfl⟩⟩) fun hst => ?_
  rw [if_neg hst]
  set m : Segment := { s.shm with mutex := true } with hm
  have hg : Good m L := h.locked
  rw [wp_bind, wp_open h.attached h.unlocked, wp_bind]
  rcases seek_cases hg.shape (k := .thread) (by decide)
      (fun x => strcmp (m.thread x).name name = 0) with
    ⟨prev, hseek, hderef, hno⟩ | ⟨xs, t, ys, hs, ht0, ht, hxs, hseek, hderef⟩
  · have hv : (view s.shm L).findThread name = none := by
      refine List.find?_eq_none.mpr fun u hu => ?_
      obtain ⟨z, hz, rfl⟩ := List.mem_map.mp hu
      have := of_decide_eq_false (hno z hz)
      exact fun e => this (strcmp_eq_zero.mpr (of_decide_eq_true e))
    rw [wp_walk_opened hseek, wp_bind, wp_look_opened, hderef, if_pos rfl, wp_bind, wp_close rfl, hv]
    exact ⟨_, rfl, rfl, L, .closed h hg h.idle rfl rfl rfl, .inl ⟨rfl, rfl⟩⟩
  have hv : (view s.shm L).findThread name = some (slot m L t) :=
    findThread_split hs (by simpa [strcmp_eq_zero] using ht)
      fun z hz => by simpa [strcmp_eq_zero] using hxs z hz
  rw [wp_walk_opened hseek, wp_bind, wp_look_opened, hderef, if_neg ht0, wp_bind, wp_look_opened, hv]
  refine .ite (fun hc => ?_) fun hc => ?_
  · -- the thread has a component
    have hd : m.state ≠ .destroyed := fun e => hst ⟨by rw [show s.shm.state = _ from e]; decide,
      by rw [show s.shm.state = _ from e]; decide⟩
    rw [wp_bind]
    exact wp_hal_exit_held R (s := opened s m) h.attached hd rfl _ fun _ => ⟨rfl, if_pos hc⟩
  · obtain ⟨m', L', e, hg', hi', hv', -, -, hmx, hl', hst'⟩ := hg.unlink_thread h.idle hs
    rw [wp_bind, wp_change_opened, wp_bind, wp_free_thread R e, wp_bind, wp_close hmx]
    have hmoved : Moved s L [.dropThread t] (closed s m') L' := .closed h hg' hi' hv' hl' hst'
    exact ⟨_, if_neg hc, rfl, L', hmoved.outside _ s.ref_cnt _,
      .inr ⟨t, by rw [hs]; simp, rfl, rfl⟩⟩

/-- The same, without RTAPI. -/
theorem hal_thread_delete_spec {s : State σ} {L : Lists} (h : Inv s L) (name : CStr) :
    Wp (hal_thread_delete R name) s
      (fun r s' => ∃ spec, (view s.shm L).delete s.shm.lock s.shm.state name = some spec ∧
        r = spec.1 ∧ ∃ L', Moved s L spec.2 s' L')
      fun e _ => e = .deadlock ∧ (view s.shm L).delete s.shm.lock s.shm.state name = none :=
  (hal_thread_delete_unmakes R h name).mono
    (fun _ _ ⟨spec, hspec, hr, L', hm, _⟩ => ⟨spec, hspec, hr, L', hm⟩) fun _ _ => id

/-! ### Taking HAL down -/

/-- What went on outside the segment while threads were freed. -/
def State.outside (s : State σ) (rt : σ) (strikes : List Strike) : State σ :=
  { s with rt := rt, strikes := strikes }

/-- RTAPI after the tasks of the threads were paused and deleted, one after the other. -/
def unmake_threads (ts : List Slot) (rt : σ) : σ :=
  ts.foldl (fun rt t => unmake R t.thread.task_id rt) rt

/-- **The loop of `hal_app_exit`.**  It deletes the threads one after the other, and ends. -/
theorem teardown_threads_spec {s : State σ} {m : Segment} {L : Lists} {fuel : Nat} (hg : Good m L)
    (hi : Idle L) (hfuel : (L.act .thread).length < fuel) :
    Returns (teardown_threads R fuel) (opened s m) fun _ s' => ∃ strikes m' L',
      s' = opened (s.outside (unmake_threads R (view m L).threads s.rt) strikes) m' ∧ Good m' L' ∧
      Idle L' ∧ L'.act .thread = [] ∧
      view m' L' = (view m L).applyAll ((L.act .thread).map .dropThread) ∧ m'.mutex = m.mutex ∧
      m'.lock = m.lock ∧ m'.state = m.state := by
  induction hl : L.act .thread generalizing s m L fuel with
  | nil =>
      obtain ⟨n, rfl⟩ : ∃ n, fuel = n + 1 := ⟨fuel - 1, by omega⟩
      have hd : (m.arena.pool .thread).list_ptr = 0 := by
        have := (hg.shape.rep .thread).used
        rwa [hl] at this
      have hnone : (view m L).threads = [] := by rw [view, hl]; rfl
      unfold teardown_threads Returns
      rw [wp_bind, wp_look_opened, if_neg (not_not_intro hd), hnone]
      exact ⟨s.strikes, m, L, rfl, hg, hi, hl, rfl, rfl, rfl, rfl⟩
  | cons t ts ih =>
      obtain ⟨n, rfl⟩ : ∃ n, fuel = n + 1 := ⟨fuel - 1, by omega⟩
      have hd : (m.arena.pool .thread).list_ptr = t := by
        have := (hg.shape.rep .thread).used
        rw [hl] at this
        exact this.1
      have ht0 : t ≠ 0 := hg.shape.act_ne_zero (k := .thread) (by simp [hl])
      have hs : L.act .thread = [] ++ t :: ts := hl
      obtain ⟨m₁, L₁, e, hg₁, hi₁, hv₁, hact, -, hmx, hlock, hstate⟩ := hg.unlink_thread hi hs
      rw [Link.of_nil] at e
      unfold teardown_threads Returns
      rw [wp_bind, wp_look_opened, hd, if_pos ht0, wp_bind, wp_change_opened, wp_bind,
        wp_free_thread R e]
      have hlen : (L₁.act .thread).length < n := by rw [hact]; simp [hl] at hfuel ⊢; omega
      -- the threads that are left are those behind the first
      have hleft : (view m L).threads = slot m L t :: (view m₁ L₁).threads := by
        have hno : ∀ u ∈ ts.map (slot m L), u.off ≠ t := fun u hu => by
          obtain ⟨z, hz, rfl⟩ := List.mem_map.mp hu
          exact ne_of_mem_of_not_mem hz (notMem_of_split hg.shape hs)
        rw [hv₁]
        simp only [Registry.apply, view, hl, List.map_cons]
        rw [List.filter_cons_of_neg (by simp), List.filter_eq_self.mpr fun u hu => by
          simpa using hno u hu]
      refine (ih (s := struck R s (m.unlink .thread .root t) t) hg₁ hi₁ hlen hact).mono
        fun _ s' hpost => ?_
      obtain ⟨strikes, m', L', e', hg', hi', ha', hv', h₁, h₂, h₃⟩ := hpost
      refine ⟨strikes, m', L', ?_, hg', hi', ha', ?_, h₁.trans hmx, h₂.trans hlock,
        h₃.trans hstate⟩
      · rw [e', hleft]
        rfl
      · rw [hv', hv₁]
        rfl

/-- The part of `hal_app_exit` under the mutex. -/
def app_exit_remove : Prog σ Unit := do
  rtapi_mutex_get
  teardown_threads R FUEL
  rtapi_mutex_give

theorem app_exit_remove_spec {s : State σ} {L : Lists} (h : Inv s L) :
    Returns (app_exit_remove R) s fun _ s' => ∃ L',
      Moved s L ((L.act .thread).map .dropThread) s' L' ∧ L'.act .thread = [] ∧
      s'.rt = unmake_threads R (view s.shm L).threads s.rt := by
  unfold app_exit_remove Returns
  rw [wp_bind, wp_open h.attached h.unlocked, wp_bind]
  refine (teardown_threads_spec R h.locked h.idle (h.good.shape.short (by decide))).mono
    fun _ s' ⟨strikes, m', L', e, hg', hi', ha', hv', hmx, hl, hst⟩ => ?_
  rw [e, wp_close hmx]
  have hmoved : Moved s L ((L.act .thread).map .dropThread) (closed s m') L' :=
    .closed h hg' hi' hv' hl hst
  exact ⟨L', hmoved.outside _ s.ref_cnt strikes, ha', rfl⟩

/-- The part of `hal_app_exit` on the segment, from the state that it sets first. -/
theorem hal_app_teardown_moved {s : State σ} {L : Lists} (h : Inv s L) :
    Returns (hal_app_teardown R) s fun _ s' => ∃ L',
      Moved { s with shm := { s.shm with state := .shutting_down } } L
        ((L.act .thread).map .dropThread) s' L' ∧ L'.act .thread = [] ∧
      s'.rt = unmake_threads R (view s.shm L).threads s.rt := by
  have h₁ : Inv { s with shm := { s.shm with state := .shutting_down } } L :=
    { h with good := ⟨h.good.shape, h.good.sound, h.good.plain⟩ }
  exact app_exit_remove_spec R h₁

/-- **The part of `hal_app_exit` on the segment.** -/
theorem hal_app_teardown_spec {s : State σ} {L : Lists} (h : Inv s L) :
    Returns (hal_app_teardown R) s fun _ s' => ∃ L', Inv s' L' ∧ L'.act .thread = [] ∧
      view s'.shm L' = (view s.shm L).applyAll ((L.act .thread).map .dropThread) :=
  (hal_app_teardown_moved R h).mono fun _ _ ⟨L', hm, ha, _⟩ => ⟨L', hm.inv, ha, hm.events⟩

end RTS.Hal

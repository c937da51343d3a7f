import RealTimeSystem.System.Creating
import RealTimeSystem.Uspace.Alive

/-!
# System — what a failed `hal_create_thread` leaves

A failure leaves the lists, the live tasks and the base period alone unless it comes too late or is
rolled back too far.  Too late: the first thread has set the base period, which can be set once, or
the thread is listed and its component is refused.  Too far: the thread got no task, and the
roll-back deletes task 0, which is that of another thread.
-/

namespace RTS.Uspace

open RTS.Support RTS.Hal

variable {K : Kernel} {s s' : State Machine} {m : Machine} {L L' : Lists} {name : CStr}
  {period_nsec : Nat} {uses_fp priority : Int}

/-! ### The base period -/

section
variable (K) (s : State Machine) (name : CStr) (period_nsec : Nat) (uses_fp priority : Int)

/-- The call is the one that sets the base period: there is no thread, and it is not set. -/
def SetsPeriod : Prop :=
  (s.shm.arena.pool .thread).list_ptr = 0 ∧ s.rt.process.period = 0 ∧ toInt64 period_nsec ≠ 0

/-- Whatever fails can be taken back. -/
def Retractable : Prop :=
  Makes s name period_nsec →
    (Employs (rtapi K) s period_nsec uses_fp priority →
      Equips (rtapi K) s.shm (s.shm.arena.alloc .thread).2
        (launched (rtapi K) s period_nsec uses_fp priority).2 name) ∧
    (¬ Employs (rtapi K) s period_nsec uses_fp priority → ¬ SetsPeriod s period_nsec ∧
      (¬ Engages (rtapi K) s period_nsec uses_fp priority → ¬ s.rt.process.Alive 0))

end

/-- The base period that `hal_create_thread` finds, or sets. -/
theorem clock_fits_period (period_nsec : Nat) :
    (clock_fits (rtapi K) period_nsec m).2.process.period =
      if m.process.period = 0 then toInt64 period_nsec else m.process.period := by
  obtain ⟨hask, -⟩ := clock_set_period_period (K := K) (m := m) 0
  obtain ⟨hr, hs⟩ := hask rfl
  obtain ⟨hz, hset⟩ := clock_set_period_period (K := K) (m := ((rtapi K).clock_set_period 0 m).2)
    (toInt64 period_nsec)
  simp only [clock_fits, hr]
  by_cases hp : m.process.period = 0
  · have hafter : ((rtapi K).clock_set_period (toInt64 period_nsec)
        ((rtapi K).clock_set_period 0 m).2).2.process.period = toInt64 period_nsec := by
      by_cases hn : toInt64 period_nsec = 0
      · refine (congrArg Process.period (hz hn).2).trans ?_
        rw [hs, hp, hn]
      · exact (hset hn (hs ▸ hp)).2
    rw [if_pos hp, if_pos hp]
    split_ifs <;> exact hafter
  · rw [if_neg hp, if_neg hp, hs]

theorem clocked_period :
    (clocked (rtapi K) s period_nsec).2.process.period =
      if (s.shm.arena.pool .thread).list_ptr = 0 ∧ s.rt.process.period = 0 then
        toInt64 period_nsec
      else s.rt.process.period := by
  unfold clocked
  by_cases hz : (s.shm.arena.pool .thread).list_ptr = 0
  · rw [if_pos hz, clock_fits_period]
    simp only [hz, true_and]
  · rw [if_neg hz, if_neg fun h => hz h.1]

/-- Asking for the clock leaves the tasks. -/
theorem clocked_alive (i : Nat) :
    (clocked (rtapi K) s period_nsec).2.process.Alive i ↔ s.rt.process.Alive i := by
  unfold clocked Process.Alive
  by_cases hz : (s.shm.arena.pool .thread).list_ptr = 0
  · rw [if_pos hz, clock_fits_tasks]
  · rw [if_neg hz]

/-- A thread that gets a task makes one task more. -/
theorem launched_alive (he : Engages (rtapi K) s period_nsec uses_fp priority) :
    ∃ n : Nat, (tasked (rtapi K) s period_nsec uses_fp priority).1 = n ∧
      ¬ s.rt.process.Alive n ∧
      (launched (rtapi K) s period_nsec uses_fp priority).2.process.period =
        (clocked (rtapi K) s period_nsec).2.process.period ∧
      ∀ i, (launched (rtapi K) s period_nsec uses_fp priority).2.process.Alive i ↔
        s.rt.process.Alive i ∨ i = n := by
  rcases task_new_alive (K := K) (m := (clocked (rtapi K) s period_nsec).2)
    (s.hal_shmem_base + (s.shm.arena.alloc .thread).1) priority s.lib_module_id HAL_STACKSIZE
    uses_fp with ⟨hneg, -⟩ | ⟨n, hr, hfree, hp, hnew⟩
  · exact absurd hneg he.2
  have hl : SameAlive (tasked (rtapi K) s period_nsec uses_fp priority).2.process
      (launched (rtapi K) s period_nsec uses_fp priority).2.process := task_start_alive _ _
  refine ⟨n, hr, fun ha => hfree ((clocked_alive n).mpr ha), hl.period.trans hp, fun i => ?_⟩
  exact (hl.alive i).trans ((hnew i).trans (or_congr_left (clocked_alive i)))

/-! ### The roll-back -/

/-- The tasks and the period after a roll-back: task 0 is gone when the thread had none, and else
no other task than its own. -/
theorem undone_alive (K : Kernel) (s : State Machine) (period_nsec : Nat)
    (uses_fp priority : Int) :
    (undone_rt (rtapi K) s period_nsec uses_fp priority).process.period =
        (clocked (rtapi K) s period_nsec).2.process.period ∧
      (Engages (rtapi K) s period_nsec uses_fp priority → ∀ i,
        (undone_rt (rtapi K) s period_nsec uses_fp priority).process.Alive i ↔
          s.rt.process.Alive i) ∧
      (¬ Engages (rtapi K) s period_nsec uses_fp priority → ∀ i,
        (undone_rt (rtapi K) s period_nsec uses_fp priority).process.Alive i ↔
          s.rt.process.Alive i ∧ i ≠ 0) := by
  have hzero : ∀ {m : Machine}, (∀ i, m.process.Alive i ↔ s.rt.process.Alive i) →
      ∀ i, (unmake (rtapi K) 0 m).process.Alive i ↔ s.rt.process.Alive i ∧ i ≠ 0 := fun hm i => by
    rw [(unmake_alive 0).alive, hm]
    exact and_congr_right fun _ => by omega
  unfold undone_rt
  by_cases hc : (clocked (rtapi K) s period_nsec).1 = true
  swap
  · rw [if_neg hc]
    exact ⟨(unmake_alive 0).period, fun he => absurd he.1 hc, fun _ => hzero clocked_alive⟩
  rw [if_pos hc]
  by_cases ht : (tasked (rtapi K) s period_nsec uses_fp priority).1 < 0
  · -- no task
    rw [if_pos ht]
    have hs : (tasked (rtapi K) s period_nsec uses_fp priority).2.process =
        (clocked (rtapi K) s period_nsec).2.process := by
      rcases task_new_alive (K := K) (m := (clocked (rtapi K) s period_nsec).2)
        (s.hal_shmem_base + (s.shm.arena.alloc .thread).1) priority s.lib_module_id HAL_STACKSIZE
        uses_fp with ⟨-, hs⟩ | ⟨n, hr, -⟩
      · exact hs
      · have hr : (tasked (rtapi K) s period_nsec uses_fp priority).1 = n := hr
        omega
    refine ⟨(unmake_alive 0).period.trans (congrArg _ hs), fun he => absurd ht he.2, fun _ => ?_⟩
    refine hzero fun i => ?_
    rw [hs]
    exact clocked_alive i
  · -- a task that does not start
    obtain ⟨n, hr, hfree, hp, hnew⟩ := launched_alive (K := K) (s := s) ⟨hc, ht⟩
    rw [if_neg ht, hr]
    have hend := (task_delete_alive (K := K) (m := (launched (rtapi K) s period_nsec uses_fp
      priority).2) n).again (unmake_alive (K := K) n)
    refine ⟨hend.period.trans hp, fun _ i => ?_, fun he => absurd ⟨hc, ht⟩ he⟩
    rw [hend.alive, hnew]
    constructor
    · rintro ⟨ha | rfl, hne⟩
      · exact ha
      · exact absurd rfl hne
    · intro ha
      refine ⟨.inl ha, fun e => hfree ?_⟩
      obtain rfl : i = n := by omega
      exact ha

/-! ### The whole -/

/-- The lists of threads, components, parameters and pins, the live tasks and the base period are
the same. -/
structure Untouched (s s' : State Machine) : Prop where
  lists : ∃ g g', s.shm.Holds g ∧ s'.shm.Holds g' ∧ g'.threads = g.threads ∧ g'.comps = g.comps ∧
    g'.params = g.params ∧ g'.pins = g.pins
  tasks : ∀ n, s'.rt.process.Alive n ↔ s.rt.process.Alive n
  period : s'.rt.process.period = s.rt.process.period

theorem Untouched.of_moved (h : Inv s L) (hm : Moved s L [] s' L')
    (htasks : ∀ n, s'.rt.process.Alive n ↔ s.rt.process.Alive n)
    (hperiod : s'.rt.process.period = s.rt.process.period) : Untouched s s' where
  lists := by
    refine ⟨_, _, h.good.shape.holds, hm.inv.good.shape.holds, ?_⟩
    rw [hm.events]
    exact ⟨rfl, rfl, rfl, rfl⟩
  tasks := htasks
  period := hperiod

/-- The lists have as many threads as before. -/
theorem Untouched.threads (h : Untouched s s') (hs : Shape s.shm.arena L)
    (hs' : Shape s'.shm.arena L') : (L'.act .thread).length = (L.act .thread).length := by
  obtain ⟨g, g', hg, hg', e, -⟩ := h.lists
  have h₁ := ((hs.rep .thread).used.unique hg.threads.1)
  have h₂ := ((hs'.rep .thread).used.unique hg'.threads.1)
  rw [h₁, h₂, e]

/-- **When a failed `hal_create_thread` leaves nothing behind.**  It does so unless it set the base
period, deleted task 0 for want of a task, or listed the thread before its component was refused. -/
theorem hal_create_thread_atomic (h : Reachable (rtapi K) s) (name : CStr) (period_nsec : Nat)
    (uses_fp priority : Int) :
    (∀ r s', hal_create_thread (rtapi K) name period_nsec uses_fp priority s = .ok r s' → r < 0 →
        Untouched s s') ↔ Retractable K s name period_nsec uses_fp priority := by
  obtain ⟨L, hinv⟩ := h.inv
  have hcr : Returns (hal_create_thread (rtapi K) name period_nsec uses_fp priority) s
      (Creates (rtapi K) s L name period_nsec uses_fp priority) := hal_create_thread_creates _ hinv
  obtain ⟨r, s', hrun, hc⟩ := hcr.exists_ok
  constructor
  · intro hall hmakes
    cases hc with
    | refused hno _ _ _ => exact absurd hmakes hno
    | undone _ hno hr hm hrt =>
        refine ⟨fun he => absurd he hno, fun _ => ?_⟩
        have hun := hall r s' hrun hr
        obtain ⟨hperiod, -, hdead⟩ := undone_alive K s period_nsec uses_fp priority
        refine ⟨fun hset => hset.2.2 ?_, fun heng h0 => ?_⟩
        · -- the base period was zero
          have := hun.period
          rw [hrt, hperiod, clocked_period, if_pos ⟨hset.1, hset.2.1⟩, hset.2.1] at this
          exact this
        · have := (hun.tasks 0).mpr h0
          rw [hrt, hdead heng] at this
          exact this.2 rfl
    | done _ hemp hr hinv' hlen _ =>
        refine ⟨fun _ => ?_, fun hno => absurd hemp hno⟩
        by_contra hno
        have hun := hall r s' hrun (hr.mpr hno)
        have := hun.threads hinv.good.shape hinv'.good.shape
        omega
  · intro hret r₁ s₁ hrun₁ hr₁
    obtain ⟨rfl, rfl⟩ : r = r₁ ∧ s' = s₁ := by
      rw [hrun] at hrun₁
      cases hrun₁
      exact ⟨rfl, rfl⟩
    cases hc with
    | refused _ _ hm hrt => exact .of_moved hinv hm (fun n => by rw [hrt]) (by rw [hrt])
    | undone hmakes hno _ hm hrt =>
        obtain ⟨hset, h0⟩ := (hret hmakes).2 hno
        obtain ⟨hperiod, hlive, hdead⟩ := undone_alive K s period_nsec uses_fp priority
        refine .of_moved hinv hm (fun n => ?_) ?_
        · rw [hrt]
          by_cases heng : Engages (rtapi K) s period_nsec uses_fp priority
          · exact hlive heng n
          · rw [hdead heng]
            exact and_iff_left_of_imp fun ha e => h0 heng (e ▸ ha)
        · rw [hrt, hperiod, clocked_period]
          split_ifs with hz
          · rw [hz.2]
            exact Decidable.by_contra fun hn => hset ⟨hz.1, hz.2, hn⟩
          · rfl
    | done hmakes hemp hr _ _ _ => exact absurd ((hret hmakes).1 hemp) (hr.mp hr₁)

/-- The base period is set, by a thread whose priority is too high. -/
def paced : State Machine :=
  played (rtapi serving) [.hal_create_thread (lit ['t']) 1000000 0 200] started

/-- A second thread of the same name; and a thread that gets a structure and no task, once the base
period is set. -/
theorem hal_create_thread_atomic_sample :
    (result (hal_create_thread (rtapi serving) (lit ['t']) 2000000 0 50) scheduled =
        some (-EINVAL) ∧
      ∀ r s', hal_create_thread (rtapi serving) (lit ['t']) 2000000 0 50 scheduled = .ok r s' →
        r < 0 → Untouched scheduled s') ∧
    result (hal_create_thread (rtapi serving) (lit ['t']) 1000000 0 200) paced = some (-EINVAL) ∧
      ∀ r s', hal_create_thread (rtapi serving) (lit ['t']) 1000000 0 200 paced = .ok r s' →
        r < 0 → Untouched paced s' := by
  refine ⟨⟨by decide +kernel, ?_⟩, by decide +kernel, ?_⟩
  · refine (hal_create_thread_atomic scheduled_reachable (lit ['t']) 2000000 0 50).mpr fun hm => ?_
    exact absurd hm.free (by decide +kernel)
  · have hpaced : Reachable (rtapi serving) paced :=
      Playable.reachable ⟨trivial, trivial, by decide +kernel, trivial⟩
    have htask : (tasked (rtapi serving) paced 1000000 0 200).1 < 0 := by decide +kernel
    refine (hal_create_thread_atomic hpaced (lit ['t']) 1000000 0 200).mpr fun _ =>
      ⟨fun he => absurd htask he.1.2, fun _ => ⟨fun hset => ?_, fun _ => by decide +kernel⟩⟩
    exact absurd hset.2.1 (by decide +kernel)

/-- HAL, locked against loading. -/
def unloadable : State Machine := played (rtapi serving) [.hal_set_lock HAL_LOCK_LOAD] started

/-- The thread is listed and runs when its parameter is refused.  Without the lock, a second attempt
finds the name taken. -/
theorem unloadable_listed : Reachable (rtapi serving) unloadable ∧
    ∃ s', hal_create_thread (rtapi serving) (lit ['t']) 1000000 0 50 unloadable =
        .ok (-EINVAL) s' ∧ ¬ Untouched unloadable s' ∧
      result (do let _ ← hal_set_lock 0
                 hal_create_thread (rtapi serving) (lit ['t']) 1000000 0 50) s' =
        some (-EINVAL) := by
  have hrun : result (hal_create_thread (rtapi serving) (lit ['t']) 1000000 0 50) unloadable =
      some (-EINVAL) := by decide +kernel
  refine ⟨Playable.reachable ⟨trivial, trivial, by decide +kernel, trivial⟩, _, result_eq hrun,
    fun h => ?_, by decide +kernel⟩
  exact absurd h.period (by decide +kernel)

end RTS.Uspace

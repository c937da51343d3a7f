import RealTimeSystem.Hal.Effects
import RealTimeSystem.Hal.Flags
import RealTimeSystem.System.Boot

/-!
# System — the state of HAL and the flag of its threads

`hal_start_threads` and `hal_stop_threads` write `hal_data->state` and `threads_running` together.
Of the other operations that leave the threads alone only `free_thread_struct` writes one of the
two: `hal_create_thread` calls it to roll back, also while the threads run.
-/

namespace RTS.Hal

open RTS.Support RTS.Uspace

variable {σ : Type} {R : Rtapi σ} {s s' s₀ : State σ} {L : Lists}

/-! ### One operation -/

/-- The operations that are there to change the state. -/
def Op.Switches : Op → Prop
  | .hal_start_threads => True
  | .hal_stop_threads => True
  | _ => False

theorem Op.steady (op : Op) (hd : ¬ op.Deletes) (hw : ¬ op.Switches) :
    Along Steady (op.run R) := by
  refine Steady.op op fun hf => ?_
  cases op with
  | hal_start_threads => exact hw trivial
  | hal_stop_threads => exact hw trivial
  | teardown => exact hd trivial
  | _ => exact hf.elim

/-- Only a rollback strikes a task. -/
theorem Effect.strikes {op : Op} {L' : Lists} (h : Inv s L) (he : Effect R s L op s' L')
    (hu : ¬ op.Undone R s) : s'.strikes = s.strikes := by
  have hcreate : ∀ {s₁ : State σ} {name period_nsec uses_fp priority}, Admits s name period_nsec →
      ¬ Undoes R s name period_nsec uses_fp priority →
      Tasked s L (making R s L name period_nsec uses_fp priority).rt
        (making R s L name period_nsec uses_fp priority).struck s₁ → s₁.strikes = s.strikes := by
    intro s₁ name period_nsec uses_fp priority ha hu ht
    obtain ⟨ks, hks, hmap, -⟩ := ht.strikes
    have hnone : (making R s L name period_nsec uses_fp priority).struck = [] :=
      Decidable.by_contra fun hne => hu (making_struck h ha hne)
    rw [hnone, List.map_eq_nil_iff] at hmap
    rw [hks, hmap, List.nil_append]
  cases he with
  | calm hc => exact hc.strikes
  | init _ hq _ => exact hq.strikes
  | exit _ hq _ => exact hq.strikes
  | create hc =>
      cases hc with
      | refused _ => rfl
      | undone ha _ _ ht => exact hcreate ha hu ht
      | done ha _ _ _ ht ho => exact ho.quiet.strikes.trans (hcreate ha hu ht)

/-! ### The two fields together -/

/-- The state and the flag agree: running with the flag set, or active with the flag clear. -/
def Agree (m : Segment) : Prop :=
  (m.state = .running ∧ m.threads_running = 1) ∨ (m.state = .active ∧ m.threads_running = 0)

theorem hal_start_threads_agree (h : Agree s.shm) :
    Returns hal_start_threads s fun _ s' => Agree s'.shm := by
  unfold hal_start_threads
  simp only [returns_bind, returns_get]
  exact .ite (fun _ => h) fun _ => .ite (fun _ => h) fun _ => .ite (fun _ => h) fun _ =>
    .ite (fun _ => h) fun _ => .inl ⟨rfl, rfl⟩

theorem hal_stop_threads_agree (h : Agree s.shm) :
    Returns hal_stop_threads s fun _ s' => Agree s'.shm := by
  unfold hal_stop_threads
  simp only [returns_bind, returns_get]
  exact .ite (fun _ => h) fun _ => .ite (fun _ => h) fun _ => .ite (fun _ => h) fun _ =>
    .ite (fun _ => h) fun _ => .inr ⟨rfl, rfl⟩

theorem Op.agree {op : Op} (h : Inv s L) (hd : ¬ op.Deletes) (hsane : op.Sane)
    (hu : ¬ (s.shm.state = .running ∧ op.Undone R s)) (hrun : op.run R s = .ok () s')
    (ha : Agree s.shm) : Agree s'.shm := by
  by_cases hw : op.Switches
  · cases op <;> try exact hw.elim
    · exact Returns.of_ignored (hal_start_threads_agree ha) hrun
    · exact Returns.of_ignored (hal_stop_threads_agree ha) hrun
  obtain ⟨-, hst, -, hflag⟩ := (op.steady hd hw).of_ok hrun h.mem_id
  rcases ha with ⟨hrunning, h1⟩ | ⟨hactive, h0⟩
  · -- no rollback, so no strike, so the flag stays
    obtain ⟨L', he⟩ := (op.effect h hsane hd).of_ok hrun
    have hk := he.strikes h fun hundone => hu ⟨hrunning, hundone⟩
    rcases hflag with e | ⟨-, hlt⟩
    · exact .inl ⟨hst.trans hrunning, e.trans h1⟩
    · rw [hk] at hlt
      exact absurd hlt (Nat.lt_irrefl _)
  · exact .inr ⟨hst.trans hactive, hflag.elim (fun e => e.trans h0) And.left⟩

/-! ### Runs -/

variable (R) in
/-- No thread is deleted, and none is rolled back while the threads run. -/
def Unbroken (s : State σ) (op : Op) : Prop :=
  ¬ op.Deletes ∧ ¬ (s.shm.state = .running ∧ op.Undone R s)

/-- The state tells whether the threads execute, and stopped threads can be started. -/
structure Consistent (s : State σ) : Prop where
  running : s.shm.state = .running ↔ s.shm.threads_running = 1
  active : s.shm.state = .active ↔ s.shm.threads_running = 0
  starts : s.shm.threads_running ≠ 1 → s.shm.lock &&& HAL_LOCK_RUN = 0 →
    ∃ s', hal_start_threads s = .ok 0 s' ∧ s'.shm.threads_running = 1

theorem Agree.consistent (h : Agree s.shm) (h₀ : s.hal_data ≠ 0) : Consistent s := by
  refine ⟨?_, ?_, fun hrun hlock => ?_⟩
  · rcases h with ⟨h₁, h₂⟩ | ⟨h₁, h₂⟩ <;> simp [h₁, h₂]
  · rcases h with ⟨h₁, h₂⟩ | ⟨h₁, h₂⟩ <;> simp [h₁, h₂]
  · obtain ⟨hst, -⟩ : s.shm.state = .active ∧ s.shm.threads_running = 0 :=
      h.resolve_left fun h => hrun h.2
    have hstart : Returns hal_start_threads s fun r s' => r = 0 ∧ s'.shm.threads_running = 1 := by
      unfold hal_start_threads
      simp only [returns_bind, returns_get]
      refine .ite (fun e => absurd e h₀) fun _ => .ite (fun e => absurd hlock e) fun _ =>
        .ite (fun e => ?_) fun _ => .ite (fun e => absurd hst e) fun _ => ⟨rfl, rfl⟩
      rw [hst] at e
      cases e
    obtain ⟨r, s', hs', rfl, h1⟩ := hstart.exists_ok
    exact ⟨s', hs', h1⟩

theorem Runs.agree (hr : Runs R (Unbroken R) s₀ s) (h : ∃ L, Inv s₀ L) (ha : Agree s₀.shm) :
    (∃ L, Inv s L) ∧ Agree s.shm := by
  induction hr with
  | start => exact ⟨h, ha⟩
  | op op _ hsane hop hrun ih =>
      obtain ⟨⟨L, hinv⟩, ha⟩ := ih
      exact ⟨((Op.spec R hinv op).of_ok hrun).inv hsane,
        Op.agree hinv hop.1 hsane hop.2 hrun ha⟩
  | cycle code t _ ht hrun ih =>
      obtain ⟨⟨L, hinv⟩, ha⟩ := ih
      obtain ⟨cs, data, rt, rfl⟩ := cycle_ran hinv (hinv.good.shape.listed.mp ht) hrun
      exact ⟨⟨L, hinv.ran cs data rt⟩, ha⟩

theorem Boots.agree {s₁ : State σ} (h : Boots R s₀ s₁) : Agree s₁.shm :=
  have ⟨_, _, hup⟩ := h.up_spec
  .inr ⟨hup.state, hup.running⟩

/-- **The state and the flag agree** in every run that rolls back no thread while the threads
run. -/
theorem lifecycle_consistent {s₁ : State σ} (h : Boots R s₀ s₁) (hr : Runs R (Unbroken R) s₁ s) :
    Consistent s :=
  have ⟨⟨_, hinv⟩, ha⟩ := hr.agree ⟨_, h.inv⟩ h.agree
  ha.consistent hinv.attached

theorem lifecycle_consistent_sample :
    Consistent (played (rtapi serving) [.hal_create_thread (lit ['t']) 1000000 0 50,
      .hal_start_threads, .hal_stop_threads] started) :=
  lifecycle_consistent started_starts.boots (Playable.runs ⟨trivial,
    ⟨id, fun h => absurd h.1 (by decide +kernel)⟩, by decide +kernel, trivial, ⟨id, And.right⟩,
    by decide +kernel, trivial, ⟨id, And.right⟩, by decide +kernel, trivial⟩ .start)

/-- A thread with too high a priority, made while the threads run. -/
def halfStopped : State Machine :=
  played (rtapi serving) [.hal_create_thread (lit ['t']) 1000000 0 50, .hal_start_threads,
    .hal_create_thread (lit ['u']) 1000000 0 200] started

/-- The threads do not execute, and starting them answers `-EALREADY`. -/
theorem halfStopped_inconsistent : Reachable (rtapi serving) halfStopped ∧
    ¬ Consistent halfStopped ∧ halfStopped.shm.threads_running = 0 ∧
    result hal_start_threads halfStopped = some (-EALREADY) := by
  refine ⟨Playable.reachable ⟨trivial, trivial, by decide +kernel, trivial, trivial,
    by decide +kernel, trivial, trivial, by decide +kernel, trivial⟩, fun h => ?_,
    by decide +kernel, by decide +kernel⟩
  exact absurd (h.running.mp (by decide +kernel)) (by decide +kernel)

end RTS.Hal

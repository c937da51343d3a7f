import RealTimeSystem.System.Boot

/-!
# System — the mutex

An operation is `Disciplined` when it returns, asks for the mutex only while it is free, gives it
only while it is held, and leaves it free.  In a reachable state that fails on the inputs of
`Op.Blocked` only: `hal_thread_delete` calls `hal_exit` with the mutex held, and
`hal_add_funct_to_thread` stores through a null pointer when there is no function entry left.
-/

namespace RTS.Hal

open RTS.Support RTS.Uspace

variable {σ : Type} {R : Rtapi σ} {s : State σ}

variable (R) in
/-- The operation returns, asks for the mutex only while it is free, gives it only while it is held,
and leaves it free. -/
def Disciplined (op : Op) (s : State σ) : Prop :=
  ∃ s', op.run R s = .ok () s' ∧ Orderly s'.locks ∧ s'.shm.mutex = false

/-- **Mutex discipline.**  In a reachable state an operation is disciplined except on the inputs
of `Op.Blocked`. -/
theorem disciplined_iff (h : Reachable R s) (op : Op) : Disciplined R op s ↔ ¬ op.Blocked s := by
  obtain ⟨L, hinv⟩ := h.inv
  have hspec := Op.spec R hinv op
  constructor
  · rintro ⟨s', hrun, -, -⟩
    exact (hspec.of_ok hrun).free
  · intro hb
    rcases hrun : op.run R s with ⟨_, s'⟩ | ⟨e, s'⟩
    · have ha := hspec.of_ok hrun
      exact ⟨s', hrun, ha.orderly, ha.unlocked⟩
    · unfold Wp at hspec
      rw [hrun] at hspec
      exact absurd hspec.1 hb

/-- Deleting the thread that was made asks for the mutex a second time. -/
theorem thread_delete_undisciplined : ∃ s, Reachable (rtapi serving) s ∧ s.shm.mutex = false ∧
    ¬ Disciplined (rtapi serving) (.hal_thread_delete (lit ['t'])) s ∧
    ∃ s', (Op.hal_thread_delete (lit ['t'])).run (rtapi serving) s = .error .deadlock s' := by
  have hrun := stops_eq (x := (Op.hal_thread_delete (lit ['t'])).run (rtapi serving)) (s := scheduled)
    (e := .deadlock) (by decide +kernel)
  refine ⟨scheduled, scheduled_reachable, by decide +kernel, ?_, _, hrun⟩
  rintro ⟨s', h, -⟩
  rw [hrun] at h
  cases h

theorem disciplined_iff_sample :
    Disciplined (rtapi serving) (.hal_ready 2) scheduled ↔ ¬ (Op.hal_ready 2).Blocked scheduled :=
  disciplined_iff scheduled_reachable (.hal_ready 2)

end RTS.Hal

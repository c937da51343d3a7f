import RealTimeSystem.Hal.Keeping

/-!
# HAL — which operations leave the state and the flag of the threads alone

`free_thread_struct` clears `threads_running`, and with that strikes a task.  `Steady` is what all
other steps keep, once the library is initialised: the state, and the flag unless a task was
struck.
-/

namespace RTS.Hal

open RTS.Support

variable {σ : Type} {R : Rtapi σ}

/-! ### Functions of the segment -/

/-- The state and the flag are as before. -/
def SameFlags (m m' : Segment) : Prop :=
  m'.threads_running = m.threads_running ∧ m'.state = m.state

namespace SameFlags

variable {m m' m'' : Segment}

theorem rfl' (m : Segment) : SameFlags m m := ⟨rfl, rfl⟩

theorem trans (h : SameFlags m m') (h' : SameFlags m' m'') : SameFlags m m'' :=
  ⟨h'.1.trans h.1, h'.2.trans h.2⟩

/-- What HAL does to the segment leaves both, but for `free_thread_struct` and the operations that
set them. -/
theorem keeping : Keeping SameFlags where
  refl := rfl'
  trans := trans
  same := And.right
  up _ _ := ⟨rfl, rfl⟩
  dn _ _ := ⟨rfl, rfl⟩

end SameFlags

/-! ### Programs -/

/-- Once the library is initialised: the state stays, and the flag too or a task was struck and the
flag is clear. -/
def Steady (s s' : State σ) : Prop :=
  s.lib_mem_id ≠ 0 → s'.lib_mem_id = s.lib_mem_id ∧ s'.shm.state = s.shm.state ∧
    s.strikes.length ≤ s'.strikes.length ∧
    (s'.shm.threads_running = s.shm.threads_running ∨
      s'.shm.threads_running = 0 ∧ s.strikes.length < s'.strikes.length)

theorem Steady.of_same {s s' : State σ} (hid : s'.lib_mem_id = s.lib_mem_id)
    (hstrikes : s'.strikes = s.strikes) (h : SameFlags s.shm s'.shm) : Steady s s' :=
  fun _ => ⟨hid, h.2, hstrikes ▸ Nat.le_refl _, .inl h.1⟩

instance : Std.Refl (Steady (σ := σ)) where
  refl _ := .of_same rfl rfl (.rfl' _)

instance : IsTrans (State σ) Steady where
  trans _ _ _ h h' hid := by
    obtain ⟨hid₁, hst₁, hlen₁, hrun₁⟩ := h hid
    obtain ⟨hid₂, hst₂, hlen₂, hrun₂⟩ := h' (by rwa [hid₁])
    refine ⟨hid₂.trans hid₁, hst₂.trans hst₁, Nat.le_trans hlen₁ hlen₂, ?_⟩
    rcases hrun₂ with e₂ | ⟨e₂, hlt⟩
    · exact hrun₁.imp e₂.trans fun ⟨e₁, hlt⟩ => ⟨e₂.trans e₁, by omega⟩
    · exact .inr ⟨e₂, by omega⟩

namespace Steady

variable {α : Type}

theorem keeps : Keeps R SameFlags Steady where
  segment := SameFlags.keeping
  put _ _ _ _ h := .of_same rfl rfl h
  strike _ _ := fun _ => ⟨rfl, rfl, by simp, .inl rfl⟩
  step _ _ _ := .of_same rfl rfl (.rfl' _)

/-- The library is not initialised. -/
theorem of_zero {x : Prog σ α} {s : State σ} (h : s.lib_mem_id = 0) :
    Wp x s (fun _ s' => Steady s s') fun _ s' => Steady s s' := by
  unfold Wp
  cases x s <;> exact fun hid => absurd h hid

/-- The flag is cleared, and two strikes follow. -/
theorem free_thread_struct (thread : Nat) : Along Steady (free_thread_struct R thread) := by
  intro s
  unfold Hal.free_thread_struct Hal.rtapi_task_pause Hal.rtapi_task_delete Hal.walkTo
  simp only [wp_bind, wp_change, wp_look, wp_modify, wp_call, wp_get]
  have hlt : ∀ k k' : Strike, s.strikes.length < (k :: k' :: s.strikes).length :=
    fun _ _ => Nat.lt_succ_of_lt (Nat.lt_succ_self _)
  have hle : ∀ k k' : Strike, s.strikes.length ≤ (k :: k' :: s.strikes).length :=
    fun k k' => Nat.le_of_lt (hlt k k')
  rcases hf : ({ s.shm with threads_running := 0 } : Segment).clear_thread thread with _ | m
  · exact fun _ => ⟨rfl, rfl, hle _ _, .inr ⟨rfl, hlt _ _⟩⟩
  · obtain ⟨h₁, h₂⟩ := SameFlags.keeping.clear_thread hf
    exact fun _ => ⟨rfl, h₂, hle _ _, .inr ⟨h₁, hlt _ _⟩⟩

/-- **Every operation** but those that set the two fields themselves. -/
theorem op (op : Op) (hno : ¬ op.Flags) : Along Steady (op.run R) :=
  keeps.op (fun _ hid => of_zero hid) free_thread_struct op fun hf => absurd hf hno

end Steady

end RTS.Hal

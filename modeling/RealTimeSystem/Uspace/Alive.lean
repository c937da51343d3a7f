import RealTimeSystem.Uspace.Rtapi
import RealTimeSystem.Hal.Creation

/-!
# RTAPI — the tasks that are alive

A task is alive from its `task_new` to its `task_delete`.  Here is what each function does to the
set of the live tasks and to the base period; nothing else of a task matters for it.
-/

namespace RTS.Uspace

open RTS.Support RTS.Hal

/-- The slot `n` has a task, which is not deleted. -/
def Process.Alive (s : Process) (n : Nat) : Prop :=
  n < MAX_TASKS ∧ ∃ t, s.task_array n = some t ∧ t.magic = TASK_MAGIC ∧
    (t.state = .allocated ∨ t.state = .running ∨ t.state = .paused)

/-- The task is one that can be deleted. -/
def Task.Alive (t : Task) : Prop :=
  t.magic = TASK_MAGIC ∧ (t.state = .allocated ∨ t.state = .running ∨ t.state = .paused)

variable {s s' : Process} {l : List (Asked Process Call Call.Answer)}

theorem Process.not_alive {n : Nat} (h : s.task_array n = none) : ¬ s.Alive n := by
  rintro ⟨-, t, ht, -⟩
  rw [h] at ht
  cases ht

theorem Process.alive_iff {n : Nat} {t : Task} (hn : n < MAX_TASKS) (h : s.task_array n = some t) :
    s.Alive n ↔ t.Alive := by
  constructor
  · rintro ⟨-, u, hu, ha⟩
    rw [h] at hu
    cases hu
    exact ha
  · exact fun ha => ⟨hn, t, h, ha⟩

instance (t : Task) : Decidable t.Alive := inferInstanceAs (Decidable (_ ∧ (_ ∨ _ ∨ _)))

instance (s : Process) (n : Nat) : Decidable (s.Alive n) :=
  if hn : n < MAX_TASKS then
    match h : s.task_array n with
    | none => .isFalse (Process.not_alive h)
    | some _ => decidable_of_iff _ (s.alive_iff hn h).symm
  else .isFalse fun ha => hn ha.1

/-- The live tasks after a slot was filled anew. -/
theorem Process.setTask_alive {n : Nat} (hn : n < MAX_TASKS) (t : Task) (i : Nat) :
    (s.setTask n (some t)).Alive i ↔ if i = n then t.Alive else s.Alive i := by
  by_cases hi : i = n
  · subst hi
    rw [if_pos rfl]
    exact alive_iff hn (s.setTask_self i _)
  · rw [if_neg hi]
    unfold Alive
    rw [s.setTask_of_ne hi]

theorem Process.clear_alive (n i : Nat) : (s.setTask n none).Alive i ↔ s.Alive i ∧ i ≠ n := by
  by_cases hi : i = n
  · subst hi
    exact iff_of_false (not_alive (s.setTask_self i _)) fun h => h.2 rfl
  · refine Iff.trans ?_ (and_iff_left hi).symm
    unfold Alive
    rw [s.setTask_of_ne hi]

/-- A task that is found. -/
theorem get_task_alive {id : Int} {n : Nat} {t : Task} (h : get_task s id = some (n, t)) :
    id = (n : Int) ∧ n < MAX_TASKS ∧ (s.Alive n ↔ t.Alive) ∧ t.magic = TASK_MAGIC := by
  obtain ⟨hid, hn, ht, hm⟩ := get_task_some h
  exact ⟨hid, hn, s.alive_iff hn ht, hm⟩

/-- No live task has an id that is not found. -/
theorem get_task_none {id : Int} (h : get_task s id = none) {n : Nat} (hid : (n : Int) = id) :
    ¬ s.Alive n := by
  rintro ⟨hn, t, ht, hm, -⟩
  subst hid
  unfold get_task at h
  rw [if_neg (by omega)] at h
  simp [ht, hm] at h

/-- The same tasks are alive, and the base period is the same. -/
structure SameAlive (s s' : Process) : Prop where
  alive : ∀ i, s'.Alive i ↔ s.Alive i
  period : s'.period = s.period

theorem SameAlive.refl (s : Process) : SameAlive s s := ⟨fun _ => .rfl, rfl⟩

/-- A task was changed that was alive before and after, or neither. -/
theorem SameAlive.setTask {n : Nat} {t t' : Task} (h : SameAlive s s') (hn : n < MAX_TASKS)
    (ht : s.Alive n ↔ t.Alive) (hta : t'.Alive ↔ t.Alive) :
    SameAlive s (s'.setTask n (some t')) where
  alive i := by
    rw [s'.setTask_alive hn]
    by_cases hi : i = n
    · subst hi
      rw [if_pos rfl, hta, ht]
    · rw [if_neg hi]
      exact h.alive i
  period := h.period

/-- A task is gone, and the base period is the same. -/
structure Ends (s : Process) (id : Int) (s' : Process) : Prop where
  alive : ∀ i : Nat, s'.Alive i ↔ s.Alive i ∧ (i : Int) ≠ id
  period : s'.period = s.period

theorem Ends.of_same {id : Int} (h : SameAlive s s') (hid : ∀ n : Nat, (n : Int) = id → ¬ s.Alive n) :
    Ends s id s' where
  alive i := by
    rw [h.alive]
    exact (and_iff_left_of_imp fun ha e => hid i e ha).symm
  period := h.period

theorem Ends.trans_same {id : Int} {s'' : Process} (h : SameAlive s s') (h' : Ends s' id s'') :
    Ends s id s'' where
  alive i := by rw [h'.alive, h.alive]
  period := h'.period.trans h.period

theorem Ends.again {id : Int} {s'' : Process} (h : Ends s id s') (h' : Ends s' id s'') :
    Ends s id s'' where
  alive i := by rw [h'.alive, h.alive, and_assoc, and_self]
  period := h'.period.trans h.period

/-! ### The functions -/

theorem rtapi_task_new_alive (arg : Addr) (prio owner : Int) (stacksize : Nat) (uses_fp : Int) :
    Every (rtapi_task_new arg prio owner stacksize uses_fp) s l fun _ r s' =>
      (r < 0 ∧ s' = s) ∨ ∃ n : Nat, r = n ∧ ¬ s.Alive n ∧ s'.period = s.period ∧
        ∀ i, s'.Alive i ↔ s.Alive i ∨ i = n := by
  refine (rtapi_task_new_spec arg prio owner stacksize uses_fp).mono fun _ r s' hout => ?_
  rcases hout with h | ⟨n, t, hr, hn, hfree, -, hst, hm, rfl⟩
  · exact .inl h
  · refine .inr ⟨n, hr, s.not_alive hfree, rfl, fun i => ?_⟩
    rw [s.setTask_alive hn]
    by_cases hi : i = n
    · rw [if_pos hi]
      exact iff_of_true ⟨hm, .inl hst⟩ (.inr hi)
    · rw [if_neg hi]
      exact (or_iff_left hi).symm

theorem rtapi_task_start_alive (task_id period_nsec : Int) :
    Every (rtapi_task_start task_id period_nsec) s l fun _ _ s' => SameAlive s s' := by
  unfold rtapi_task_start
  rw [every_bind, every_get]
  rcases hg : get_task s task_id with _ | ⟨n, t⟩
  · exact .refl s
  obtain ⟨-, hn, ht, hm⟩ := get_task_alive hg
  refine .ite (fun _ => .refl s) fun _ => .ite (fun _ => .refl s) fun ha => ?_
  -- the task is ALLOCATED, and stays alive
  have hal : t.Alive := ⟨hm, .inl (not_not.mp ha)⟩
  rw [every_bind, every_modify, every_bind]
  refine start_attrs_spec.mono fun _ r s₁ hs => ?_
  subst hs
  have h₁ : ∀ u : Task, u.Alive → ∀ s₁, SameAlive s s₁ → SameAlive s (s₁.setTask n (some u)) :=
    fun u hu s₁ h => h.setTask hn ht (iff_of_true hu hal)
  rcases r with _ | e
  · rw [every_bind, every_modify, every_bind, every_ask]
    rintro (_ | e)
    · refine h₁ _ ?_ _ (h₁ _ ?_ _ (.refl s))
      · exact ⟨hm, .inr (.inl rfl)⟩
      · exact hal
    · refine h₁ _ ?_ _ (h₁ _ ?_ _ (h₁ _ ?_ _ (.refl s)))
      · exact ⟨hm, .inl rfl⟩
      · exact ⟨hm, .inr (.inl rfl)⟩
      · exact hal
  · refine h₁ _ ?_ _ (h₁ _ ?_ _ (.refl s))
    · exact hal
    · exact hal

theorem rtapi_task_pause_alive (id : Int) :
    Every (rtapi_task_pause id) s l fun _ _ s' => SameAlive s s' := by
  unfold rtapi_task_pause
  rw [every_bind, every_get]
  rcases hg : get_task s id with _ | ⟨n, t⟩
  · exact .refl s
  obtain ⟨-, hn, ht, hm⟩ := get_task_alive hg
  refine .ite (fun _ => .refl s) fun hr => ?_
  exact (SameAlive.refl s).setTask hn ht
    (iff_of_true ⟨hm, .inr (.inr rfl)⟩ ⟨hm, .inr (.inl (not_not.mp hr))⟩)

theorem rtapi_task_delete_alive (id : Int) :
    Every (rtapi_task_delete id) s l fun _ _ s' => Ends s id s' := by
  unfold rtapi_task_delete
  rw [every_bind, every_get]
  rcases hg : get_task s id with _ | ⟨n, t⟩
  · exact .of_same (.refl s) fun _ => get_task_none hg
  obtain ⟨hid, hn, ht, hm⟩ := get_task_alive hg
  have hdead : ¬ t.Alive → Ends s id s := fun hd => .of_same (.refl s) fun i hi ha => by
    obtain rfl : i = n := by omega
    exact hd (ht.mp ha)
  refine .ite (fun hd => hdead fun ha => ?_) fun _ => .ite (fun hd => hdead fun ha => ?_) fun _ => ?_
  · rcases ha.2 with h | h | h <;> rw [hd] at h <;> cases h
  · rcases ha.2 with h | h | h <;> rcases hd with hd | hd <;> rw [hd] at h <;> cases h
  have hclear : ∀ s₁ : Process, (∀ i, i ≠ n → (s₁.Alive i ↔ s.Alive i)) → s₁.period = s.period →
      Ends s id (s₁.setTask n none) := fun s₁ h hp => by
    refine ⟨fun i => ?_, hp⟩
    rw [s₁.clear_alive, hid]
    by_cases hi : i = n
    · exact iff_of_false (fun h => h.2 hi) fun h => h.2 (by rw [hi])
    · rw [h i hi]
      exact and_congr_right fun _ => by omega
  refine .ite (fun _ => ?_) fun _ => ?_
  · refine fun _ _ => hclear _ (fun i hi => ?_) rfl
    rw [s.setTask_alive hn, if_neg hi]
  · exact fun _ _ => hclear s (fun _ _ => .rfl) rfl

/-- A base period is set once. -/
theorem rtapi_clock_set_period_period (nsecs : Int) :
    Every (rtapi_clock_set_period nsecs) s l fun _ r s' =>
      (nsecs = 0 → r = s.period ∧ s' = s) ∧
      (nsecs ≠ 0 → s.period = 0 → r = nsecs ∧ s'.period = nsecs) := by
  unfold rtapi_clock_set_period
  rw [every_bind, every_get]
  refine .ite (fun h => ⟨fun _ => ⟨rfl, rfl⟩, fun h' => absurd h h'⟩) fun h => ?_
  refine .ite (fun hp => ⟨fun h' => absurd h' h, fun _ h' => absurd h' hp⟩) fun _ => ?_
  exact ⟨fun h' => absurd h' h, fun _ _ => ⟨rfl, rfl⟩⟩

/-! ### As HAL sees them -/

variable {K : Kernel} {m : Machine}

theorem task_new_alive (arg : Addr) (prio owner stacksize uses_fp : Int) :
    (((rtapi K).task_new arg prio owner stacksize uses_fp m).1 < 0 ∧
        ((rtapi K).task_new arg prio owner stacksize uses_fp m).2.process = m.process) ∨
      ∃ n : Nat, ((rtapi K).task_new arg prio owner stacksize uses_fp m).1 = n ∧
        ¬ m.process.Alive n ∧
        ((rtapi K).task_new arg prio owner stacksize uses_fp m).2.process.period =
          m.process.period ∧
        ∀ i, ((rtapi K).task_new arg prio owner stacksize uses_fp m).2.process.Alive i ↔
          m.process.Alive i ∨ i = n :=
  perform_of_every (K := K) (m := m) (rtapi_task_new_alive (l := []) arg prio owner _ uses_fp)

theorem task_start_alive (task_id period_nsec : Int) :
    SameAlive m.process ((rtapi K).task_start task_id period_nsec m).2.process :=
  perform_of_every (K := K) (m := m) (rtapi_task_start_alive (l := []) task_id period_nsec)

theorem task_pause_alive (id : Int) : SameAlive m.process ((rtapi K).task_pause id m).2.process :=
  perform_of_every (K := K) (m := m) (rtapi_task_pause_alive (l := []) id)

theorem task_delete_alive (id : Int) : Ends m.process id ((rtapi K).task_delete id m).2.process :=
  perform_of_every (K := K) (m := m) (rtapi_task_delete_alive (l := []) id)

theorem clock_set_period_period (nsecs : Int) :
    (nsecs = 0 → ((rtapi K).clock_set_period nsecs m).1 = m.process.period ∧
        ((rtapi K).clock_set_period nsecs m).2.process = m.process) ∧
      (nsecs ≠ 0 → m.process.period = 0 → ((rtapi K).clock_set_period nsecs m).1 = nsecs ∧
        ((rtapi K).clock_set_period nsecs m).2.process.period = nsecs) :=
  perform_of_every (K := K) (m := m) (rtapi_clock_set_period_period (l := []) nsecs)

/-- The task of a thread is paused and deleted. -/
theorem unmake_alive (id : Int) : Ends m.process id (unmake (rtapi K) id m).process :=
  .trans_same (task_pause_alive id) (task_delete_alive id)

end RTS.Uspace

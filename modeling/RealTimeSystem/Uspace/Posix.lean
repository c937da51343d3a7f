import RealTimeSystem.Uspace.Rtapi

/-!
# RTAPI — the handles of task threads

Nothing records whether `PosixTask::thr` holds a thread.  Here the library calls a process has made
say it: a successful `pthread_create` stores a handle, `pthread_join` ends it.  A process that starts
without tasks makes any sequence of calls on the task table, and its task threads wake up in between.

**When handles are valid** (`task_handles`).  `pthread_cancel` and `pthread_join` get only handles
that exist exactly if no task is deleted while ALLOCATED: one that was never started, or whose start
failed.
-/

namespace RTS.Uspace

open RTS.Support

/-- The library calls of a process, newest first. -/
abbrev Log := List (Asked Process Call Call.Answer)

/-! ### Handles -/

/-- Which tasks hold a thread after one more call. -/
def Call.handles (held : Nat → Bool) : (c : Call) → c.Answer → Nat → Bool
  | .pthread_create n, none => Function.update held n true
  | .pthread_join n, _ => Function.update held n false
  | _, _ => held

/-- The tasks whose handle a successful `pthread_create` stored and that were not joined since. -/
def held : Log → Nat → Bool
  | [] => fun _ => false
  | x :: l => x.call.handles (held l) x.answer

theorem held_created (q : Process) (n : Nat) (l : Log) :
    held (⟨q, .pthread_create n, none⟩ :: l) = Function.update (held l) n true := rfl

theorem held_joined (q : Process) (n : Nat) (l : Log) :
    held (⟨q, .pthread_join n, ()⟩ :: l) = Function.update (held l) n false := rfl

/-- A call uses only a handle that exists. -/
def Call.Valid (held : Nat → Bool) : Call → Prop
  | .pthread_cancel n | .pthread_join n => held n = true
  | _ => True

/-- Every call did, when it was made. -/
def Valid : Log → Prop
  | [] => True
  | x :: l => x.call.Valid (held l) ∧ Valid l

/-- Calls that have nothing to do with handles. -/
structure Silent (l l' : Log) : Prop where
  held : held l' = held l
  valid : Valid l' ↔ Valid l

theorem Silent.refl (l : Log) : Silent l l := ⟨rfl, .rfl⟩

theorem Silent.trans {l l' l'' : Log} (h : Silent l l') (h' : Silent l' l'') : Silent l l'' :=
  ⟨h'.held.trans h.held, h'.valid.trans h.valid⟩

/-- A call that is neither a creation nor a use is silent. -/
theorem Silent.cons {x : Asked Process Call Call.Answer} (l : Log)
    (hh : x.call.handles (Uspace.held l) x.answer = Uspace.held l)
    (hv : x.call.Valid (Uspace.held l)) : Silent l (x :: l) :=
  ⟨hh, and_iff_right hv⟩

/-! ### Sequences of calls -/

inductive TaskCall where
  | task_new (arg : Addr) (prio owner : Int) (stacksize : Nat) (uses_fp : Int)
  | task_start (task_id period_nsec : Int)
  | task_pause (task_id : Int)
  | task_resume (task_id : Int)
  | task_delete (id : Int)
  /-- the thread of a paused task goes on -/
  | wake (n : Nat)

/-- The pause in `Posix::wait`, in the thread of task `n`: both semaphores are passed. -/
def wake (n : Nat) : Sys Int := do
  let s ← get
  match s.task_array n with
  | none => return 0
  | some t =>
      if 0 < t.pause_sem ∧ 0 < t.resume_sem then
        modify fun s => s.setTask n (some { t with
          pause_sem := t.pause_sem - 1, resume_sem := t.resume_sem - 1, state := .running })
      return 0

namespace TaskCall

def exec : TaskCall → Sys Int
  | task_new arg prio owner stacksize uses_fp => rtapi_task_new arg prio owner stacksize uses_fp
  | task_start task_id period_nsec => rtapi_task_start task_id period_nsec
  | task_pause task_id => rtapi_task_pause task_id
  | task_resume task_id => rtapi_task_resume task_id
  | task_delete id => rtapi_task_delete id
  | wake n => Uspace.wake n

/-- It deletes a task that is ALLOCATED. -/
def Unstarted (s : Process) : TaskCall → Prop
  | task_delete id => (get_task s id).any (fun x => x.2.state = .allocated) = true
  | _ => False

end TaskCall

/-- A process with the library calls it has made. -/
structure Logged where
  machine : Machine := {}
  log : Log := []

/-- One call, with the answers of `K`. -/
def Logged.next (K : Kernel) (m : Logged) (c : TaskCall) : Logged :=
  ⟨(perform K c.exec m.machine).2, (c.exec m.machine.process).asked K m.machine.tick m.log⟩

/-- A sequence of calls. -/
def sequence (K : Kernel) : List TaskCall → Logged → Logged
  | [], m => m
  | c :: cs, m => sequence K cs (m.next K c)

/-- No call of the sequence deletes a task that is ALLOCATED then. -/
def Started (K : Kernel) : List TaskCall → Logged → Prop
  | [], _ => True
  | c :: cs, m => ¬ c.Unstarted m.machine.process ∧ Started K cs (m.next K c)

/-! ### A task holds a thread unless it is ALLOCATED -/

/-- What a slot says of the handle. -/
def Tells (b : Bool) : Option Task → Prop
  | none => b = false
  | some t => (t.state = .allocated ∧ t.pause_sem = 0 ∧ b = false) ∨
      ((t.state = .running ∨ t.state = .paused) ∧ b = true)

/-- Every slot says it rightly. -/
def Threaded (s : Process) (held : Nat → Bool) : Prop := ∀ n, Tells (held n) (s.task_array n)

theorem Threaded.setTask {s : Process} {h : Nat → Bool} (hs : Threaded s h) {n : Nat}
    {o : Option Task} (ho : Tells (h n) o) : Threaded (s.setTask n o) h := by
  intro i
  by_cases hi : i = n
  · subst hi
    rwa [s.setTask_self]
  · rw [s.setTask_of_ne hi]
    exact hs i

/-- Only the last task put into a slot counts. -/
theorem Threaded.again {s : Process} {h : Nat → Bool} {n : Nat} {o o' : Option Task}
    (hs : Threaded (s.setTask n o) h) : Threaded ((s.setTask n o').setTask n o) h := by
  unfold Process.setTask at *
  rwa [Function.update_idem]

theorem Threaded.change {s : Process} {h h' : Nat → Bool} (hs : Threaded s h) {n : Nat} {b : Bool}
    {o : Option Task} (hh : h' = Function.update h n b) (ho : Tells b o) :
    Threaded (s.setTask n o) h' := by
  intro i
  rw [hh]
  by_cases hi : i = n
  · subst hi
    rwa [s.setTask_self, Function.update_self]
  · rw [s.setTask_of_ne hi, Function.update_of_ne hi]
    exact hs i

variable {s : Process} {l : Log}

/-- What one call does: the slots stay right, and a handle is misused just by the deletion of an
ALLOCATED task. -/
def Handles (s : Process) (c : TaskCall) (l : Log) : Prop :=
  Every c.exec s l fun l' _ s' =>
    Threaded s' (held l') ∧ (Valid l' ↔ Valid l ∧ ¬ c.Unstarted s)

theorem Silent.handles {c : TaskCall} {s' : Process} {l' : Log} (h : Silent l l')
    (hs : Threaded s' (Uspace.held l)) (hc : ¬ c.Unstarted s) :
    Threaded s' (Uspace.held l') ∧ (Valid l' ↔ Valid l ∧ ¬ c.Unstarted s) :=
  ⟨h.held ▸ hs, h.valid.trans (and_iff_left hc).symm⟩

theorem task_new_handles (h : Threaded s (held l)) (arg : Addr) (prio owner : Int)
    (stacksize : Nat) (uses_fp : Int) :
    Handles s (.task_new arg prio owner stacksize uses_fp) l := by
  unfold Handles TaskCall.exec rtapi_task_new
  simp only [every_bind, every_ask]
  intro highest
  have h1 : Silent l (⟨s, .sched_get_priority_max, highest⟩ :: l) := .cons l rfl trivial
  refine .ite (fun _ => h1.handles h id) fun _ => ?_
  rw [every_bind, every_ask]
  intro lowest
  have h2 := h1.trans (.cons (x := ⟨s, .sched_get_priority_min, lowest⟩) _ rfl trivial)
  refine .ite (fun _ => h2.handles h id) fun _ => ?_
  rw [every_bind, every_get]
  rcases hn : allocate_task_id s with _ | n
  · exact h2.handles h id
  · intro pid
    have h3 := h2.trans (.cons (x := ⟨s, .getpid, pid⟩) _ rfl trivial)
    -- the slot was free, so no thread belongs to it
    have hfree : s.task_array n = none := by simpa using List.find?_some hn
    have hb : held l n = false := by
      have := h n
      rwa [hfree] at this
    exact h3.handles (h.setTask (.inl ⟨rfl, rfl, hb⟩)) id

/-- A slot that has a task. -/
theorem Threaded.told (h : Threaded s (held l)) {n : Nat} {t : Task}
    (ht : s.task_array n = some t) : Tells (held l n) (some t) := ht ▸ h n

theorem set_attrs_silent (as : List Attr) :
    Every (set_attrs as) s l fun l' _ s' => s' = s ∧ Silent l l' := by
  induction as generalizing l with
  | nil => exact ⟨rfl, .refl l⟩
  | cons a as ih =>
      unfold set_attrs
      rw [every_bind, every_ask]
      intro r
      have h1 : Silent l (⟨s, .pthread_attr a, r⟩ :: l) := .cons l rfl trivial
      rcases r with _ | e
      · exact ih.mono fun _ _ _ hpost => ⟨hpost.1, h1.trans hpost.2⟩
      · exact ⟨rfl, h1⟩

theorem start_attrs_silent : Every start_attrs s l fun l' _ s' => s' = s ∧ Silent l l' := by
  unfold start_attrs
  rw [every_bind]
  refine (set_attrs_silent _).mono fun l₁ r s₁ ⟨hs, hl⟩ => ?_
  subst hs
  rcases r with _ | e
  · rw [every_bind, every_ask]
    intro cpu
    have h1 := hl.trans (.cons (x := ⟨s₁, .rt_cpu, cpu⟩) _ rfl trivial)
    exact .ite (fun _ => (set_attrs_silent _).mono fun _ _ _ ⟨hs, hl⟩ => ⟨hs, h1.trans hl⟩)
      fun _ => ⟨rfl, h1⟩
  · exact ⟨rfl, hl⟩

theorem task_start_handles (h : Threaded s (held l)) (task_id period_nsec : Int) :
    Handles s (.task_start task_id period_nsec) l := by
  unfold Handles TaskCall.exec rtapi_task_start
  rw [every_bind, every_get]
  rcases hg : get_task s task_id with _ | ⟨n, t⟩
  · exact (Silent.refl l).handles h id
  obtain ⟨-, -, ht, -⟩ := get_task_some hg
  refine .ite (fun _ => (Silent.refl l).handles h id) fun _ => ?_
  refine .ite (fun _ => (Silent.refl l).handles h id) fun ha => ?_
  have hb : t.pause_sem = 0 ∧ held l n = false := by
    rcases h.told ht with ⟨-, hp, hb⟩ | ⟨hr | hp, -⟩
    · exact ⟨hp, hb⟩
    · exact absurd (hr ▸ ha) (by decide)
    · exact absurd (hp ▸ ha) (by decide)
  have hal : t.state = .allocated := not_not.mp ha
  have hset : ∀ u : Task, u.state = .allocated → u.pause_sem = 0 → Tells (held l n) (some u) :=
    fun u hu hp => .inl ⟨hu, hp, hb.2⟩
  rw [every_bind, every_modify, every_bind]
  refine start_attrs_silent.mono fun l₁ r s₁ ⟨hs, hl⟩ => ?_
  subst hs
  rcases r with _ | e
  · -- RUNNING before the thread is there
    rw [every_bind, every_modify, every_bind, every_ask]
    rintro (_ | e)
    · refine ⟨?_, (and_iff_right trivial).trans (hl.valid.trans (and_iff_left id).symm)⟩
      refine .again (h.change ((held_created _ n l₁).trans (by rw [hl.held])) ?_)
      exact .inr ⟨.inl rfl, rfl⟩
    · have h1 : ∀ q, Silent l₁ (⟨q, .pthread_create n, some e⟩ :: l₁) := fun _ => .cons l₁ rfl trivial
      refine (hl.trans (h1 _)).handles ?_ id
      refine .again (.again (h.setTask ?_))
      exact hset _ rfl hb.1
  · refine hl.handles (.again (h.setTask ?_)) id
    exact hset _ hal hb.1

theorem task_pause_handles (h : Threaded s (held l)) (task_id : Int) :
    Handles s (.task_pause task_id) l := by
  unfold Handles TaskCall.exec rtapi_task_pause
  rw [every_bind, every_get]
  rcases hg : get_task s task_id with _ | ⟨n, t⟩
  · exact (Silent.refl l).handles h id
  obtain ⟨-, -, ht, -⟩ := get_task_some hg
  refine .ite (fun _ => (Silent.refl l).handles h id) fun hr => ?_
  refine (Silent.refl l).handles (h.setTask (.inr ⟨.inr rfl, ?_⟩)) id
  rcases h.told ht with ⟨ha, -⟩ | ⟨-, hb⟩
  · exact absurd (ha ▸ hr) (by decide)
  · exact hb

theorem task_resume_handles (h : Threaded s (held l)) (task_id : Int) :
    Handles s (.task_resume task_id) l := by
  unfold Handles TaskCall.exec rtapi_task_resume
  rw [every_bind, every_get]
  rcases hg : get_task s task_id with _ | ⟨n, t⟩
  · exact (Silent.refl l).handles h id
  obtain ⟨-, -, ht, -⟩ := get_task_some hg
  refine .ite (fun _ => (Silent.refl l).handles h id) fun _ => ?_
  have hn := h.told ht
  exact (Silent.refl l).handles (h.setTask hn) id

theorem wake_handles (h : Threaded s (held l)) (n : Nat) : Handles s (.wake n) l := by
  unfold Handles TaskCall.exec wake
  rw [every_bind, every_get]
  rcases ht : s.task_array n with _ | t
  · exact (Silent.refl l).handles h id
  refine .ite (fun hp => ?_) fun _ => ?_
  · -- a task that was paused holds a thread
    refine (Silent.refl l).handles (h.setTask (.inr ⟨.inl rfl, ?_⟩)) id
    rcases h.told ht with ⟨-, hz, -⟩ | ⟨-, hb⟩
    · exact absurd hp.1 (hz ▸ Nat.lt_irrefl 0)
    · exact hb
  · exact (Silent.refl l).handles h id

/-- Cancelling and joining a thread. -/
theorem join_valid {p q : Process} (n : Nat) :
    Valid (⟨q, .pthread_join n, ()⟩ :: ⟨p, .pthread_cancel n, ()⟩ :: l) ↔
      Valid l ∧ held l n = true := by
  constructor
  · rintro ⟨-, hb, hl⟩
    exact ⟨hl, hb⟩
  · rintro ⟨hl, hb⟩
    exact ⟨hb, hb, hl⟩

theorem task_delete_handles (h : Threaded s (held l)) (id : Int) :
    Handles s (.task_delete id) l := by
  unfold Handles TaskCall.exec rtapi_task_delete
  rw [every_bind, every_get]
  rcases hg : get_task s id with _ | ⟨n, t⟩
  · refine (Silent.refl l).handles h ?_
    simp only [TaskCall.Unstarted, hg]
    exact Bool.false_ne_true
  obtain ⟨-, -, ht, -⟩ := get_task_some hg
  have hun : (TaskCall.task_delete id).Unstarted s ↔ t.state = .allocated := by
    simp only [TaskCall.Unstarted, hg]
    exact decide_eq_true_iff
  have hb : held l n = true ↔ ¬ t.state = .allocated := by
    rcases h.told ht with ⟨ha, -, hb⟩ | ⟨hr | hp, hb⟩
    · simp [ha, hb]
    · simp [hr, hb]
    · simp [hp, hb]
  have hstate : t.state = .allocated ∨ t.state = .running ∨ t.state = .paused := by
    rcases h.told ht with ⟨ha, -⟩ | ⟨hr, -⟩
    · exact .inl ha
    · exact .inr hr
  refine .ite (fun hd => absurd hd ?_) fun _ => .ite (fun hd => absurd hd ?_) fun _ => ?_
  · rcases hstate with hs | hs | hs <;> rw [hs] <;> decide
  · rcases hstate with hs | hs | hs <;> rw [hs] <;> decide
  rw [hun, ← hb]
  refine .ite (fun _ => ?_) fun _ => ?_
  · intro _ _
    refine ⟨.again (h.change (held_joined _ n _) rfl), join_valid n⟩
  · intro _ _
    exact ⟨h.change (held_joined _ n _) rfl, join_valid n⟩

/-- One call. -/
theorem taskCall_handles (h : Threaded s (held l)) (c : TaskCall) : Handles s c l := by
  cases c with
  | task_new arg prio owner stacksize uses_fp =>
      exact task_new_handles h arg prio owner stacksize uses_fp
  | task_start task_id period_nsec => exact task_start_handles h task_id period_nsec
  | task_pause task_id => exact task_pause_handles h task_id
  | task_resume task_id => exact task_resume_handles h task_id
  | task_delete id => exact task_delete_handles h id
  | wake n => exact wake_handles h n

/-! ### Sequences -/

theorem sequence_handles (K : Kernel) (cs : List TaskCall) (m : Logged)
    (h : Threaded m.machine.process (held m.log)) :
    Valid (sequence K cs m).log ↔ Valid m.log ∧ Started K cs m := by
  induction cs generalizing m with
  | nil => exact (and_iff_left trivial).symm
  | cons c cs ih =>
      obtain ⟨hs, hv⟩ := (taskCall_handles h c).run K m.machine.tick
      refine (ih (m.next K c) hs).trans ?_
      rw [show Valid (m.next K c).log ↔ _ from hv]
      exact and_assoc

/-- **When handles are valid.**  Whatever the library calls answer, thread handles are used only
while they exist just if no task is deleted while it is ALLOCATED. -/
theorem task_handles (K : Kernel) (cs : List TaskCall) :
    Valid (sequence K cs {}).log ↔ Started K cs {} :=
  (sequence_handles K cs {} fun _ => rfl).trans (and_iff_right trivial)

/-- A system that creates no threads. -/
def threadless (n : Nat) : (c : Call) → c.Answer
  | .pthread_create _ => some ⟨11, by decide⟩
  | c => plain_answers n c

/-- A task whose start failed is cancelled and joined. -/
theorem failed_start_joined : ¬ Valid (sequence threadless
    [.task_new 65536 50 1 0 0, .task_start 0 1000000, .task_delete 0] {}).log := by
  intro ⟨(h : held _ 0 = true), _⟩
  exact absurd h (by decide +kernel)

end RTS.Uspace

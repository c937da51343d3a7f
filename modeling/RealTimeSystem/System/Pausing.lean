import RealTimeSystem.Support.Steps
import RealTimeSystem.Uspace.Tasks
import Mathlib.Data.List.Count

/-!
# System — a task that is paused

A thread that pauses and resumes a task, beside the task's own thread in `wait`.  Each access to the
task is one action: the state is read, the state is written, a semaphore is posted or taken.

The trace of the events, newest first, tells which pause a release answers: `task_pause` refuses a
task that is paused, so the pauses and the releases pair off in order.
-/

namespace RTS.Uspace

open RTS.Support

/-! ### The two threads -/

namespace Pausing

/-- Where the controlling thread is: in no call, in `task_pause` past the check of the state, there
past the store of `TASK_S_PAUSED`, in `task_resume` past the check. -/
inductive Caller where
  | idle | pausing | stored | resuming
  deriving DecidableEq

/-- Where the task thread is: not in the branch of a pause, before the `sem_wait`, before the store
of `TASK_S_RUNNING`. -/
inductive Waiter where
  | cycling | blocked | woken
  deriving DecidableEq

/-- What is seen of the two threads: a `task_pause` that returns 0, a call of `task_resume`, and a
`sem_wait` that is past. -/
inductive Event where
  | paused | resume | released
  deriving DecidableEq

end Pausing

structure Pausing where
  task : Task
  caller : Pausing.Caller := .idle
  waiter : Pausing.Waiter := .cycling
  trace : List Pausing.Event := []

namespace Pausing

inductive Act where
  | task_pause | store_paused | post_pause
  | task_resume | post_resume
  | trywait | sem_wait | store_running
  deriving DecidableEq

/-- A call that returns `-EINVAL` leaves its thread idle. -/
def step : Act → Pausing → Option Pausing
  | .task_pause, s =>
      if s.caller ≠ .idle then none
      else if s.task.state ≠ .running then some s
      else some { s with caller := .pausing }
  | .store_paused, s =>
      if s.caller ≠ .pausing then none
      else some { s with task.state := .paused, caller := .stored }
  | .post_pause, s =>
      if s.caller ≠ .stored then none
      else some { s with
        task.pause_sem := s.task.pause_sem + 1, caller := .idle, trace := .paused :: s.trace }
  | .task_resume, s =>
      if s.caller ≠ .idle then none
      else if s.task.state ≠ .paused then some { s with trace := .resume :: s.trace }
      else some { s with caller := .resuming, trace := .resume :: s.trace }
  | .post_resume, s =>
      if s.caller ≠ .resuming then none
      else some { s with task.resume_sem := s.task.resume_sem + 1, caller := .idle }
  | .trywait, s =>
      if s.waiter ≠ .cycling then none
      else if s.task.pause_sem = 0 then some s
      else some { s with task.pause_sem := s.task.pause_sem - 1, waiter := .blocked }
  | .sem_wait, s =>
      if s.waiter ≠ .blocked ∨ s.task.resume_sem = 0 then none
      else some { s with
        task.resume_sem := s.task.resume_sem - 1, waiter := .woken, trace := .released :: s.trace }
  | .store_running, s =>
      if s.waiter ≠ .woken then none
      else some { s with task.state := .running, waiter := .cycling }

/-- The task as `task_start` leaves it. -/
def started (t : Task) : Pausing :=
  { task := { t with state := .running, pause_sem := 0, resume_sem := 0 } }

theorem acted_pause {t : Task} (h : t.state = .running) :
    acted step [.task_pause, .store_paused, .post_pause] { task := t } =
      some { task := { t with state := .paused, pause_sem := t.pause_sem + 1 }
             trace := [.paused] } := by
  simp [acted, step, h]

theorem acted_resume {t : Task} (h : t.state = .paused) :
    acted step [.task_resume, .post_resume] { task := t } =
      some { task := { t with resume_sem := t.resume_sem + 1 }, trace := [.resume] } := by
  simp [acted, step, h]

variable {l : List (Asked Process Call Call.Answer)}

/-- Where nothing comes between its actions, the call is the one of `uspace_rtapi_app.cpp`. -/
theorem task_pause_acted {s : Process} {id : Int} {n : Nat} {t : Task}
    (h : get_task s id = some (n, t)) :
    Every (rtapi_task_pause id) s l fun _ r s' =>
      (r = -EINVAL ∧ s' = s ∧ step .task_pause { task := t } = some { task := t }) ∨
      (r = 0 ∧ ∃ p, acted step [.task_pause, .store_paused, .post_pause] { task := t } = some p ∧
        s'.task_array n = some p.task) := by
  unfold rtapi_task_pause
  rw [every_bind, every_get, h]
  refine .ite (fun hne => .inl ⟨rfl, rfl, ?_⟩) fun hr => ?_
  · simp [step, hne]
  · exact .inr ⟨rfl, _, acted_pause (not_not.mp hr), s.setTask_self ..⟩

theorem task_resume_acted {s : Process} {id : Int} {n : Nat} {t : Task}
    (h : get_task s id = some (n, t)) :
    Every (rtapi_task_resume id) s l fun _ r s' =>
      (r = -EINVAL ∧ s' = s ∧
        step .task_resume { task := t } = some { task := t, trace := [.resume] }) ∨
      (r = 0 ∧ ∃ p, acted step [.task_resume, .post_resume] { task := t } = some p ∧
        s'.task_array n = some p.task) := by
  unfold rtapi_task_resume
  rw [every_bind, every_get, h]
  refine .ite (fun hne => .inl ⟨rfl, rfl, ?_⟩) fun hp => ?_
  · simp [step, hne]
  · exact .inr ⟨rfl, _, acted_resume (not_not.mp hp), s.setTask_self ..⟩

/-! ### Releases and their pauses -/

/-- More pauses than releases had happened when some `task_resume` was called. -/
def Answered (trace : List Event) : Prop :=
  ∃ later earlier, trace = later ++ .resume :: earlier ∧
    trace.count .released < earlier.count .paused

/-- Each release is past the pause check only if `task_resume` was called after its pause: the
`n`-th release comes after a call that comes after the `n`-th pause. -/
def Effective (trace : List Event) : Prop :=
  ∀ later earlier, trace = later ++ .released :: earlier → Answered earlier

theorem Answered.resume {trace : List Event}
    (h : trace.count .released < trace.count .paused) : Answered (.resume :: trace) := by
  refine ⟨[], trace, rfl, ?_⟩
  rwa [List.count_cons_of_ne (by decide)]

theorem Effective.cons {trace : List Event} (h : Effective trace) {e : Event}
    (he : e = .released → Answered trace) : Effective (e :: trace) := by
  rintro (_ | ⟨x, later⟩) earlier heq
  · obtain ⟨rfl, rfl⟩ := List.cons.inj heq
    exact he rfl
  · exact h later earlier (List.cons.inj heq).2

theorem Effective.nil : Effective [] := fun _ _ h => by simp at h

/-! ### One token for each pause -/

/-- No resume is on its way to the task: none waits in the semaphore, and none was just taken. -/
def Unanswered (s : Pausing) : Prop := s.task.resume_sem = 0 ∧ s.waiter ≠ .woken

/-- `task_resume` is called on a paused task only while the pause is unanswered. -/
def Prompt (s : Pausing) (a : Act) : Prop :=
  a = .task_resume → s.task.state = .paused → s.Unanswered

instance (s : Pausing) (a : Act) : Decidable (Prompt s a) :=
  inferInstanceAs (Decidable (_ → _ → _ ∧ _))

/-- The pause is asked for and not answered: its token is in `pause_sem` or was just taken. -/
def Open (s : Pausing) : Prop :=
  s.task.state = .paused ∧ s.trace.count .paused = s.trace.count .released + 1 ∧
    (s.waiter = .cycling ∧ s.task.pause_sem = 1 ∨ s.waiter = .blocked ∧ s.task.pause_sem = 0)

/-- No pause is open, and every token is used up. -/
def Settled (s : Pausing) : Prop :=
  s.trace.count .paused = s.trace.count .released ∧ s.task.pause_sem = 0 ∧ s.task.resume_sem = 0

/-- The phases of a pause. -/
inductive Phase (s : Pausing) : Prop where
  | running (hs : s.Settled) (ht : s.task.state = .running) (hw : s.waiter = .cycling)
      (hc : s.caller = .idle ∨ s.caller = .pausing)
  | stored (hs : s.Settled) (ht : s.task.state = .paused) (hw : s.waiter = .cycling)
      (hc : s.caller = .stored)
  | asked (ho : s.Open) (hr : s.task.resume_sem = 0) (hc : s.caller = .idle)
  | resuming (ho : s.Open) (hr : s.task.resume_sem = 0) (hc : s.caller = .resuming)
      (ha : Answered s.trace)
  | resumed (ho : s.Open) (hr : s.task.resume_sem = 1) (hc : s.caller = .idle)
      (ha : Answered s.trace)
  | woken (hs : s.Settled) (ht : s.task.state = .paused) (hw : s.waiter = .woken)
      (hc : s.caller = .idle)

section
variable {s s' : Pausing} {a : Act}

/-! Where the callers are tells the phase. -/

theorem Phase.of_running (h : s.Phase) (ht : s.task.state ≠ .paused) :
    s.Settled ∧ s.task.state = .running ∧ s.waiter = .cycling := by
  rcases h with ⟨hs, ht, hw, -⟩ | ⟨-, hp, -⟩ | ⟨ho, -⟩ | ⟨ho, -⟩ | ⟨ho, -⟩ | ⟨-, hp, -⟩
  · exact ⟨hs, ht, hw⟩
  all_goals simp_all [Open]

theorem Phase.of_pausing (h : s.Phase) (hi : s.caller = .pausing) :
    s.Settled ∧ s.waiter = .cycling := by
  rcases h with ⟨hs, -, hw, -⟩ | ⟨-, -, -, hc⟩ | ⟨-, -, hc⟩ | ⟨-, -, hc, -⟩ | ⟨-, -, hc, -⟩ |
    ⟨-, -, -, hc⟩
  · exact ⟨hs, hw⟩
  all_goals simp_all

theorem Phase.of_stored (h : s.Phase) (hi : s.caller = .stored) :
    s.Settled ∧ s.task.state = .paused ∧ s.waiter = .cycling := by
  rcases h with ⟨-, -, -, hc⟩ | ⟨hs, ht, hw, -⟩ | ⟨-, -, hc⟩ | ⟨-, -, hc, -⟩ | ⟨-, -, hc, -⟩ |
    ⟨-, -, -, hc⟩
  · simp_all
  · exact ⟨hs, ht, hw⟩
  all_goals simp_all

theorem Phase.of_resuming (h : s.Phase) (hi : s.caller = .resuming) :
    s.Open ∧ s.task.resume_sem = 0 ∧ Answered s.trace := by
  rcases h with ⟨-, -, -, hc⟩ | ⟨-, -, -, hc⟩ | ⟨-, -, hc⟩ | ⟨ho, hr, -, ha⟩ | ⟨-, -, hc, -⟩ |
    ⟨-, -, -, hc⟩
  case resuming => exact ⟨ho, hr, ha⟩
  all_goals simp_all

theorem Phase.of_unanswered (h : s.Phase) (hi : s.caller = .idle) (ht : s.task.state = .paused)
    (hu : s.Unanswered) : s.Open := by
  rcases h with ⟨-, hp, -⟩ | ⟨-, -, -, hc⟩ | ⟨ho, -⟩ | ⟨ho, -⟩ | ⟨ho, -⟩ | ⟨-, -, hw, -⟩
  case asked | resuming | resumed => exact ho
  all_goals simp_all [Unanswered]

theorem Phase.of_released (h : s.Phase) (hw : s.waiter = .blocked) (hr : s.task.resume_sem ≠ 0) :
    s.Open ∧ s.task.resume_sem = 1 ∧ s.caller = .idle ∧ Answered s.trace := by
  rcases h with ⟨-, -, hb, -⟩ | ⟨-, -, hb, -⟩ | ⟨-, h0, -⟩ | ⟨-, h0, -⟩ | ⟨ho, hr, hc, ha⟩ |
    ⟨-, -, hb, -⟩
  case resumed => exact ⟨ho, hr, hc, ha⟩
  all_goals simp_all

theorem Phase.of_woken (h : s.Phase) (hw : s.waiter = .woken) : s.Settled ∧ s.caller = .idle := by
  rcases h with ⟨-, -, hb, -⟩ | ⟨-, -, hb, -⟩ | ⟨ho, -⟩ | ⟨ho, -⟩ | ⟨ho, -⟩ | ⟨hs, -, -, hc⟩
  case woken => exact ⟨hs, hc⟩
  all_goals simp_all [Open]

/-- The task thread takes the token of a pause. -/
theorem Phase.trywait (h : s.Phase) (hw : s.waiter = .cycling) (hp : s.task.pause_sem ≠ 0) :
    Phase { s with task.pause_sem := s.task.pause_sem - 1, waiter := .blocked } := by
  have htake : s.Open →
      Open { s with task.pause_sem := s.task.pause_sem - 1, waiter := .blocked } := by
    rintro ⟨ht, hn, ⟨-, h1⟩ | ⟨hb, -⟩⟩
    · exact ⟨ht, hn, .inr ⟨rfl, by rw [h1]⟩⟩
    · simp_all
  rcases h with ⟨hs, -⟩ | ⟨hs, -⟩ | ⟨ho, hr, hc⟩ | ⟨ho, hr, hc, ha⟩ | ⟨ho, hr, hc, ha⟩ | ⟨hs, -⟩
  case asked => exact .asked (htake ho) hr hc
  case resuming => exact .resuming (htake ho) hr hc ha
  case resumed => exact .resumed (htake ho) hr hc ha
  all_goals exact absurd hs.2.1 hp

/-! ### One action -/

/-- What an action adds to the trace: nothing, or one event, a release only if it is answered. -/
def Adds (s s' : Pausing) : Prop :=
  s'.trace = s.trace ∨ ∃ e, s'.trace = e :: s.trace ∧ (e = .released → Answered s.trace)

theorem Effective.adds (h : Effective s.trace) (ha : Adds s s') : Effective s'.trace := by
  rcases ha with he | ⟨e, he, hans⟩
  · exact he ▸ h
  · exact he ▸ h.cons hans

/-- Each action keeps the pause in one of its phases. -/
theorem Phase.step (h : s.Phase) (hc : s.Prompt a) (ha : step a s = some s') :
    s'.Phase ∧ Adds s s' := by
  cases a <;> simp only [Pausing.step] at ha
  case task_pause =>
    split_ifs at ha with hidle hst <;> cases ha
    · exact ⟨h, .inl rfl⟩
    · obtain ⟨hs, ht, hw⟩ := h.of_running (by simp [not_not.mp hst])
      exact ⟨.running hs ht hw (.inr rfl), .inl rfl⟩
  case store_paused =>
    split_ifs at ha with hcall
    cases ha
    obtain ⟨hs, hw⟩ := h.of_pausing (not_not.mp hcall)
    exact ⟨.stored hs rfl hw rfl, .inl rfl⟩
  case post_pause =>
    split_ifs at ha with hcall
    cases ha
    obtain ⟨⟨hn, hp, hr⟩, ht, hw⟩ := h.of_stored (not_not.mp hcall)
    exact ⟨.asked ⟨ht, by simp [hn], .inl ⟨hw, by simp [hp]⟩⟩ hr rfl, .inr ⟨_, rfl, nofun⟩⟩
  case task_resume =>
    split_ifs at ha with hidle hst <;> cases ha
    · obtain ⟨⟨hn, hp, hr⟩, ht, hw⟩ := h.of_running hst
      have hs : Settled { s with trace := .resume :: s.trace } := ⟨by simpa using hn, hp, hr⟩
      exact ⟨.running hs ht hw (.inl (not_not.mp hidle)), .inr ⟨_, rfl, nofun⟩⟩
    · have hu := hc rfl (not_not.mp hst)
      obtain ⟨ht, hn, hsem⟩ := h.of_unanswered (not_not.mp hidle) (not_not.mp hst) hu
      have hans : Answered (.resume :: s.trace) := .resume (by omega)
      exact ⟨.resuming ⟨ht, by simpa using hn, hsem⟩ hu.1 rfl hans, .inr ⟨_, rfl, nofun⟩⟩
  case post_resume =>
    split_ifs at ha with hcall
    cases ha
    obtain ⟨ho, hr, ha⟩ := h.of_resuming (not_not.mp hcall)
    exact ⟨.resumed ho (by simp [hr]) rfl ha, .inl rfl⟩
  case trywait =>
    split_ifs at ha with hw hp <;> cases ha
    · exact ⟨h, .inl rfl⟩
    · exact ⟨h.trywait (not_not.mp hw) hp, .inl rfl⟩
  case sem_wait =>
    split_ifs at ha with hn
    cases ha
    obtain ⟨hw, hr⟩ := not_or.mp hn
    obtain ⟨⟨ht, hcount, hsem⟩, h1, hcall, hans⟩ := h.of_released (not_not.mp hw) hr
    refine ⟨.woken ⟨by simp [hcount], ?_, by simp [h1]⟩ ht rfl hcall, .inr ⟨_, rfl, fun _ => hans⟩⟩
    simp_all
  case store_running =>
    split_ifs at ha with hw
    cases ha
    obtain ⟨hs, hcall⟩ := h.of_woken (not_not.mp hw)
    exact ⟨.running hs rfl rfl (.inl hcall), .inl rfl⟩

end

/-! ### Runs -/

theorem started_phase (t : Task) : (started t).Phase :=
  .running ⟨rfl, rfl, rfl⟩ rfl rfl (.inl rfl)

/-- **A pause is effective**, where no `task_resume` comes for a pause that is answered already. -/
theorem pause_effective (t : Task) {s : Pausing} (h : Reached step Prompt (started t) s) :
    Effective s.trace := by
  refine (h.invariant (I := fun s => s.Phase ∧ Effective s.trace) ⟨started_phase t, .nil⟩ ?_).2
  intro s a s' ⟨hp, he⟩ hc ha
  obtain ⟨hp', hadds⟩ := hp.step hc ha
  exact ⟨hp', he.adds hadds⟩

/-- Two pauses, each answered once. -/
def answeredTwice : List Act :=
  [.task_pause, .store_paused, .post_pause, .trywait, .task_resume, .post_resume, .sem_wait,
    .store_running, .task_pause, .store_paused, .post_pause, .trywait, .task_resume, .post_resume,
    .sem_wait]

theorem pause_effective_sample : ∃ s, acted step answeredTwice (started aTask) = some s ∧
    s.trace.count .released = 2 ∧ Effective s.trace := by
  have hrun : acted step answeredTwice (started aTask) = some _ := rfl
  exact ⟨_, hrun, rfl, pause_effective aTask (.of_acted hrun (by decide))⟩

/-- A pause that is answered twice, and a second pause. -/
def resumedTwice : List Act :=
  [.task_pause, .store_paused, .post_pause, .task_resume, .post_resume, .task_resume, .post_resume,
    .trywait, .sem_wait, .store_running, .task_pause, .store_paused, .post_pause, .trywait,
    .sem_wait]

/-- The second pause is over before anyone answers it. -/
theorem resumedTwice_ineffective : ¬ ∀ (t : Task) (s : Pausing),
    Reached step (fun _ _ => True) (started t) s → Effective s.trace := by
  intro h
  have hrun : acted step resumedTwice (started aTask) = some
      { task := { aTask with state := .paused }, waiter := .woken
        trace := [.released, .paused, .released, .resume, .resume, .paused] } := rfl
  have hans := h _ _ (.of_acted hrun (by decide)) [] _ rfl
  obtain ⟨later, earlier, heq, hlt⟩ := hans
  have hearlier : earlier = [.resume, .paused] ∨ earlier = [.paused] := by
    simp [List.cons_eq_append_iff] at heq
    tauto
  rcases hearlier with rfl | rfl <;> exact absurd hlt (by decide)

end Pausing

end RTS.Uspace

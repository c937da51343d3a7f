import RealTimeSystem.Support.Lock
import RealTimeSystem.Support.Steps
import RealTimeSystem.Uspace.Tasks

/-!
# RTAPI — tasks while they are created

Threads that create and delete tasks beside each other.  `task_new` takes a slot with a
compare-and-swap that leaves the placeholder `TASK_MAGIC_INIT` there, and stores the task in a later
step; `task_delete` clears the magic number before it empties the slot.  `get_task` tests for the
placeholder, `rtapi_task_getstate` does not.

* `TaskSlot.Suits` — what a slot holds while a thread is at work on it.
* `Crew.Inv` — a slot that holds a placeholder or a task without its magic number has one thread at
  work on it, and the others none.
* **`lookups_agree_iff`** — in every state of every run, the two lookups agree on an id if and only
  if no thread is about to store a task in its slot.
-/

namespace RTS.Uspace

open RTS.Support

/-! ### The table -/

/-- A pointer of `task_array`: null, `TASK_MAGIC_INIT`, or a task. -/
inductive TaskSlot where
  | empty
  | init
  | task (t : Task)

/-- What a pointer may not be read through. -/
inductive Fault where
  | null | placeholder
  deriving DecidableEq

def TASK_S_ERROR : Int := -1

/-- The `TASK_S_*` values. -/
def TaskState.code : TaskState → Int
  | .empty => 0
  | .init => 1
  | .allocated => 2
  | .running => 3
  | .paused => 4
  | .deleted => 5

/-- The tests against 0 and against the placeholder. -/
def TaskSlot.is_null : TaskSlot → Bool
  | .empty => true
  | _ => false

def TaskSlot.is_init : TaskSlot → Bool
  | .init => true
  | _ => false

/-- The fields behind a pointer. -/
def TaskSlot.deref : TaskSlot → Except Fault Task
  | .empty => .error .null
  | .init => .error .placeholder
  | .task t => .ok t

/-- `RtapiApp::get_task`. -/
def lookup (table : Nat → TaskSlot) (task_id : Int) : Except Fault (Option Task) :=
  if task_id < 0 ∨ task_id ≥ MAX_TASKS then .ok none
  else do
    let task := table task_id.toNat
    if task.is_null ∨ task.is_init then
      return none
    let t ← task.deref
    if t.magic ≠ TASK_MAGIC then
      return none
    return some t

def rtapi_task_getstate (table : Nat → TaskSlot) (task_id : Int) : Except Fault Int :=
  if task_id < 0 ∨ task_id ≥ MAX_TASKS then .ok TASK_S_ERROR
  else do
    let task := table task_id.toNat
    if task.is_null then
      return TASK_S_ERROR
    let t ← task.deref
    if t.magic ≠ TASK_MAGIC then
      return TASK_S_ERROR
    return t.state.code

/-- Both lookups read through good pointers, and they find the same tasks. -/
structure Agree (table : Nat → TaskSlot) (task_id : Int) : Prop where
  found : ∀ t, lookup table task_id = .ok (some t) →
    rtapi_task_getstate table task_id = .ok t.state.code
  error : lookup table task_id = .ok none ↔ rtapi_task_getstate table task_id = .ok TASK_S_ERROR
  safe : ∃ task state, lookup table task_id = .ok task ∧
    rtapi_task_getstate table task_id = .ok state

/-! ### The threads -/

/-- The arguments of `task_new`. -/
structure NewTask where
  arg : Addr
  prio : Int
  owner : Int
  stacksize : Nat
  uses_fp : Int
  deriving DecidableEq

/-- Where a thread is. -/
inductive Pc where
  | idle
  /-- `task_new`, before the compare-and-swap on slot `n` -/
  | scan (a : NewTask) (n : Nat)
  /-- `task_new`, before the store of the task -/
  | fill (a : NewTask) (n : Nat)
  /-- `task_delete`, the magic number cleared -/
  | mark (n : Nat)
  /-- `task_delete`, before the slot is emptied -/
  | release (n : Nat)
  deriving DecidableEq

structure Crew where
  table : Nat → TaskSlot := fun _ => .empty
  pc : Nat → Pc := fun _ => .idle

namespace Crew

variable (s : Crew)

def setPc (i : Nat) (p : Pc) : Crew := { s with pc := Function.update s.pc i p }

/-- Thread `i` stores in slot `n` and goes on at `p`. -/
def put (n : Nat) (v : TaskSlot) (i : Nat) (p : Pc) : Crew where
  table := Function.update s.table n v
  pc := Function.update s.pc i p

/-- The process that sees the tasks only. -/
def process : Process where
  task_array n := match s.table n with
    | .task t => some t
    | _ => none

/-- The tasks are those of `p`; placeholders stay. -/
def withTasks (p : Process) : Crew :=
  { s with table := fun n => match s.table n, p.task_array n with
      | .init, _ => .init
      | _, none => .empty
      | _, some t => .task t }

end Crew

/-- The task that `task_new` stores in slot `n`. -/
def NewTask.task (a : NewTask) (n : Nat) (pid : Int) : Task where
  magic := TASK_MAGIC
  id := n
  owner := a.owner
  uses_fp := a.uses_fp
  stacksize := max a.stacksize MIN_STACK
  prio := a.prio
  arg := a.arg
  state := .allocated
  owner_pid := pid
  error_code := 0

/-- A paused task is woken before it is cancelled. -/
def Task.woken (t : Task) : Task :=
  if t.state = .paused then { t with resume_sem := t.resume_sem + 1 } else t

/-! ### One step

Each is `none` where the thread is not there. -/

namespace Crew

variable (s : Crew) (i : Nat)

/-- `task_new` is called; the priority is checked. -/
def task_new (a : NewTask) (highest lowest : Int) : Option Crew :=
  if s.pc i = .idle then
    some (if a.prio > highest ∨ a.prio < lowest then s else s.setPc i (.scan a 0))
  else none

/-- The next turn of the loop of `allocate_task_id`. -/
def cas : Option Crew :=
  match s.pc i with
  | .scan a n =>
      some (if n < MAX_TASKS then
          if (s.table n).is_null then s.put n .init i (.fill a n) else s.setPc i (.scan a (n + 1))
        else s.setPc i .idle)
  | _ => none

/-- `task_new` stores the task. -/
def store (pid : Int) : Option Crew :=
  match s.pc i with
  | .fill a n => some (s.put n (.task (a.task n pid)) i .idle)
  | _ => none

/-- `task_start`, as one step. -/
def task_start (task_id period_nsec : Int) (answers : Nat → (c : Call) → c.Answer) : Option Crew :=
  if s.pc i = .idle then
    some (s.withTasks ((rtapi_task_start task_id period_nsec s.process).run answers 0).2.1)
  else none

/-- `task_delete` as far as `task->magic = 0`. -/
def task_delete (id : Int) : Option Crew :=
  if s.pc i = .idle then
    match get_task s.process id with
    | none => some s
    | some (n, t) =>
        if t.state = .deleted ∨ t.state = .empty ∨ t.state = .init then some s
        else some (s.put n (.task { t.woken with magic := 0 }) i (.mark n))
  else none

/-- `task->state = TASK_S_DELETED`. -/
def mark : Option Crew :=
  match s.pc i with
  | .mark n =>
      match s.table n with
      | .task t => some (s.put n (.task { t with state := .deleted }) i (.release n))
      | _ => none
  | _ => none

/-- `task_array[id] = 0`. -/
def release : Option Crew :=
  match s.pc i with
  | .release n => some (s.put n .empty i .idle)
  | _ => none

end Crew

/-- What a thread can do next: start a call, or make the next access to the table. -/
inductive Act where
  | task_new (i : Nat) (a : NewTask) (highest lowest : Int)
  | cas (i : Nat)
  | store (i : Nat) (pid : Int)
  | task_start (i : Nat) (task_id period_nsec : Int) (answers : Nat → (c : Call) → c.Answer)
  | task_delete (i : Nat) (id : Int)
  | mark (i : Nat)
  | release (i : Nat)

def Act.thread : Act → Nat
  | .task_new i _ _ _ | .cas i | .store i _ | .task_start i _ _ _ | .task_delete i _ | .mark i
  | .release i => i

def Crew.step : Act → Crew → Option Crew
  | .task_new i a highest lowest, s => s.task_new i a highest lowest
  | .cas i, s => s.cas i
  | .store i pid, s => s.store i pid
  | .task_start i task_id period_nsec answers, s => s.task_start i task_id period_nsec answers
  | .task_delete i id, s => s.task_delete i id
  | .mark i, s => s.mark i
  | .release i, s => s.release i

/-- The states of the runs, from an empty table. -/
abbrev Crew.Reach : Crew → Prop := Reached Crew.step (fun _ _ => True) {}

/-! ### The lookups -/

section
variable {table : Nat → TaskSlot} {task_id : Int}

theorem rtapi_task_getstate_task {t : Task} (h : ¬ (task_id < 0 ∨ task_id ≥ MAX_TASKS))
    (ht : table task_id.toNat = .task t) : rtapi_task_getstate table task_id =
      .ok (if t.magic ≠ TASK_MAGIC then TASK_S_ERROR else t.state.code) := by
  unfold rtapi_task_getstate
  rw [if_neg h, ht]
  show (if t.magic ≠ TASK_MAGIC then Except.ok TASK_S_ERROR else Except.ok t.state.code) = _
  split_ifs <;> rfl

theorem lookup_task {t : Task} (h : ¬ (task_id < 0 ∨ task_id ≥ MAX_TASKS))
    (ht : table task_id.toNat = .task t) :
    lookup table task_id = .ok (if t.magic ≠ TASK_MAGIC then none else some t) := by
  unfold lookup
  rw [if_neg h, ht]
  show (if t.magic ≠ TASK_MAGIC then Except.ok none else Except.ok (some t)) = _
  split_ifs <;> rfl

theorem TaskState.code_ne_error (c : TaskState) : c.code ≠ TASK_S_ERROR := by
  cases c <;> decide

theorem Agree.of_none (hl : lookup table task_id = .ok none)
    (hg : rtapi_task_getstate table task_id = .ok TASK_S_ERROR) : Agree table task_id where
  found t ht := by
    rw [hl] at ht
    cases ht
  error := ⟨fun _ => hg, fun _ => hl⟩
  safe := ⟨_, _, hl, hg⟩

theorem Agree.of_some {t : Task} (hl : lookup table task_id = .ok (some t))
    (hg : rtapi_task_getstate table task_id = .ok t.state.code) : Agree table task_id where
  found u hu := by
    rw [hl] at hu
    cases hu
    exact hg
  error := by
    constructor
    · intro h
      rw [hl] at h
      cases h
    · intro h
      rw [hg] at h
      exact absurd (Except.ok.inj h) t.state.code_ne_error
  safe := ⟨_, _, hl, hg⟩

/-- The lookups agree wherever there is no placeholder. -/
theorem agree_iff : Agree table task_id ↔
    ¬ (0 ≤ task_id ∧ task_id < MAX_TASKS ∧ table task_id.toNat = .init) := by
  by_cases hr : task_id < 0 ∨ task_id ≥ MAX_TASKS
  · exact ⟨fun _ h => by omega, fun _ => .of_none (if_pos hr) (if_pos hr)⟩
  have hin : 0 ≤ task_id ∧ task_id < MAX_TASKS := by omega
  rcases hv : table task_id.toNat with _ | _ | t
  · refine ⟨fun _ h => (nomatch h.2.2), fun _ => .of_none ?_ ?_⟩
    · unfold lookup
      rw [if_neg hr, hv]
      rfl
    · unfold rtapi_task_getstate
      rw [if_neg hr, hv]
      rfl
  · -- the magic number is read through the placeholder
    have hg : rtapi_task_getstate table task_id = .error .placeholder := by
      unfold rtapi_task_getstate
      rw [if_neg hr, hv]
      rfl
    refine ⟨fun h => ?_, fun h => absurd ⟨hin.1, hin.2, rfl⟩ h⟩
    obtain ⟨_, _, -, hok⟩ := h.safe
    rw [hg] at hok
    cases hok
  · have hl := lookup_task hr hv
    have hg := rtapi_task_getstate_task hr hv
    refine ⟨fun _ h => (nomatch h.2.2), fun _ => ?_⟩
    by_cases hm : t.magic ≠ TASK_MAGIC
    · rw [if_pos hm] at hl hg
      exact .of_none hl hg
    · rw [if_neg hm] at hl hg
      exact .of_some hl hg

end

/-- The lookup is the one of the process that sees the tasks only. -/
theorem Crew.lookup_eq (s : Crew) (task_id : Int) :
    lookup s.table task_id = .ok ((get_task s.process task_id).map Prod.snd) := by
  unfold get_task
  by_cases hr : task_id < 0 ∨ task_id ≥ MAX_TASKS
  · rw [if_pos hr]
    exact if_pos hr
  rw [if_neg hr]
  rcases hv : s.table task_id.toNat with _ | _ | t
  · simp only [lookup, if_neg hr, hv, process]
    rfl
  · simp only [lookup, if_neg hr, hv, process]
    rfl
  · rw [lookup_task hr hv]
    simp only [process, hv]
    split_ifs <;> simp_all

theorem Crew.get_task_slot {s : Crew} {id : Int} {n : Nat} {t : Task}
    (h : get_task s.process id = some (n, t)) : s.table n = .task t ∧ t.magic = TASK_MAGIC := by
  obtain ⟨-, -, hn, hmagic⟩ := get_task_some h
  unfold process at hn
  rcases hv : s.table n with _ | _ | u <;> simp only [hv] at hn <;> cases hn
  exact ⟨rfl, hmagic⟩

/-! ### One thread at a slot -/

/-- The thread is at work on slot `n`. -/
def Pc.Owns (n : Nat) : Pc → Prop
  | .fill _ m | .mark m | .release m => m = n
  | .idle | .scan _ _ => False

/-- What a slot holds while a thread at `p` is at work on it. -/
def TaskSlot.Suits (v : TaskSlot) : Pc → Prop
  | .fill _ _ => v = .init
  | .mark _ | .release _ => ∃ t, v = .task t ∧ t.magic ≠ TASK_MAGIC
  | .idle | .scan _ _ => True

/-- The slot shows that a thread is at work on it. -/
def TaskSlot.held : TaskSlot → Bool
  | .empty => false
  | .init => true
  | .task t => t.magic ≠ TASK_MAGIC

theorem Pc.Owns.unique {p : Pc} {m n : Nat} (hm : p.Owns m) (hn : p.Owns n) : m = n := by
  cases p with
  | idle | scan _ _ => exact hm.elim
  | fill _ k | mark k | release k => exact hm.symm.trans hn

/-- Every slot is guarded by the thread at work on it. -/
def Crew.Inv (s : Crew) : Prop :=
  ∀ n, Guards (s.table n).held s.pc (Pc.Owns n) True (s.table n).Suits

namespace Crew.Inv

variable {s s' : Crew} {i n : Nat} {p : Pc} {v : TaskSlot}

theorem start : Crew.Inv {} := fun _ =>
  { free := fun _ => trivial
    empty := fun _ _ h => h
    held := nofun
    one := fun _ _ h => h.elim
    at_place := fun _ h => h.elim }

/-- A thread at no slot moves to a place at no slot. -/
theorem setPc (h : s.Inv) (hi : ∀ m, ¬ (s.pc i).Owns m) (hp : ∀ m, ¬ p.Owns m) :
    (s.setPc i p).Inv := fun m => (h m).outside (hi m) (hp m)

/-- A store in a slot is up to what it does to that slot. -/
theorem put (h : s.Inv)
    (hn : Guards v.held (Function.update s.pc i p) (Pc.Owns n) True v.Suits)
    (hi : ∀ m, m ≠ n → ¬ (s.pc i).Owns m) (hp : ∀ m, m ≠ n → ¬ p.Owns m) :
    (s.put n v i p).Inv := by
  intro m
  show Guards (Function.update s.table n v m).held (Function.update s.pc i p) _ _
    (Function.update s.table n v m).Suits
  by_cases hm : m = n
  · subst hm
    rw [Function.update_self]
    exact hn
  · rw [Function.update_of_ne hm]
    exact (h m).outside (hi m hm) (hp m hm)

/-- A thread at no slot takes one that is free. -/
theorem take (h : s.Inv) (hi : ∀ m, ¬ (s.pc i).Owns m) (hfree : (s.table n).held = false)
    (hv : v.held = true) (hp : p.Owns n) (hs : v.Suits p) : (s.put n v i p).Inv := by
  refine h.put ?_ (fun m _ => hi m) fun m hm hpm => hm (hpm.unique hp)
  have hg := h n
  rw [hfree] at hg
  rw [hv]
  exact hg.acquire hp hs

/-- The thread at work on a slot leaves it free. -/
theorem leave (h : s.Inv) (hi : (s.pc i).Owns n) (hv : v.held = false) :
    (s.put n v i .idle).Inv := by
  refine h.put ?_ (fun m hm hpm => hm (hpm.unique hi)) fun m _ hpm => hpm
  rw [hv]
  exact (h n).release hi id trivial

/-- The thread at work on a slot goes on. -/
theorem goOn (h : s.Inv) (hi : (s.pc i).Owns n) (hv : v.held = true) (hp : p.Owns n)
    (hs : v.Suits p) : (s.put n v i p).Inv := by
  refine h.put ?_ (fun m hm hpm => hm (hpm.unique hi)) fun m hm hpm => hm (hpm.unique hp)
  rw [hv, ← (h n).taken hi]
  exact (h n).within hi hp hs

/-- Tasks that come from others with the same magic numbers. -/
theorem withTasks (h : s.Inv) {s' : Process}
    (hsame : ∀ m t, s.table m = .task t → ∃ t', s'.task_array m = some t' ∧ t'.magic = t.magic)
    (hnone : ∀ m, s.table m = .empty → s'.task_array m = none) : (s.withTasks s').Inv := by
  intro m
  have hm := h m
  rcases hv : s.table m with _ | _ | t
  · have hw : (s.withTasks s').table m = .empty := by
      simp only [Crew.withTasks, hv, hnone m hv]
    rw [hw]
    rwa [hv] at hm
  · have hw : (s.withTasks s').table m = .init := by
      simp only [Crew.withTasks, hv]
    rw [hw]
    rwa [hv] at hm
  · obtain ⟨t', ht', hmagic⟩ := hsame m t hv
    have hw : (s.withTasks s').table m = .task t' := by
      simp only [Crew.withTasks, hv, ht']
    have hheld : (TaskSlot.task t').held = (TaskSlot.task t).held := by
      simp only [TaskSlot.held, hmagic]
    have hsuits : (TaskSlot.task t').Suits = (TaskSlot.task t).Suits := by
      funext p
      cases p <;> simp [TaskSlot.Suits, hmagic]
    rw [hw, hheld, hsuits]
    rwa [hv] at hm

end Crew.Inv

/-! ### Runs -/

/-- `task_start` creates no task and keeps the magic numbers. -/
theorem rtapi_task_start_magic (s : Process) (task_id period_nsec : Int)
    (l : List (Asked Process Call Call.Answer)) :
    Every (rtapi_task_start task_id period_nsec) s l fun _ _ s' =>
      (∀ m t, s.task_array m = some t → ∃ t', s'.task_array m = some t' ∧ t'.magic = t.magic) ∧
        ∀ m, s.task_array m = none → s'.task_array m = none := by
  rcases hg : get_task s task_id with _ | ⟨n, t⟩
  · unfold rtapi_task_start
    rw [every_bind, every_get, hg]
    exact ⟨fun m t ht => ⟨t, ht, rfl⟩, fun m hm => hm⟩
  · obtain ⟨hid, -, hn, -⟩ := get_task_some hg
    refine (rtapi_task_start_spec task_id period_nsec).mono fun _ _ s' ⟨htouched, hstays⟩ => ?_
    constructor
    · intro m u hu
      by_cases hm : (m : Int) = task_id
      · obtain ⟨u', hu', -, hmagic⟩ := hstays m u hm.symm hu
        exact ⟨u', hu', hmagic⟩
      · exact ⟨u, (htouched.others m hm).trans hu, rfl⟩
    · intro m hm
      have hne : (m : Int) ≠ task_id := fun e => by
        obtain rfl : m = n := by omega
        rw [hm] at hn
        cases hn
      exact (htouched.others m hne).trans hm

namespace Crew.Inv

variable {s s' : Crew} {i : Nat}

theorem task_new (h : s.Inv) {a : NewTask} {highest lowest : Int}
    (hs : s.task_new i a highest lowest = some s') : s'.Inv := by
  unfold Crew.task_new at hs
  split_ifs at hs with hpc hprio <;> obtain rfl := Option.some.inj hs
  · exact h
  · exact h.setPc (by rw [hpc]; exact fun _ => id) fun _ => id

theorem cas (h : s.Inv) (hs : s.cas i = some s') : s'.Inv := by
  unfold Crew.cas at hs
  split at hs
  · rename_i a n hpc
    obtain rfl := Option.some.inj hs
    have hi : ∀ m, ¬ (s.pc i).Owns m := by
      rw [hpc]
      exact fun _ => id
    split_ifs with hlt hnull
    · have hfree : (s.table n).held = false := by
        rcases hv : s.table n with _ | _ | _ <;> rw [hv] at hnull
        · rfl
        · cases hnull
        · cases hnull
      exact h.take hi hfree rfl rfl rfl
    · exact h.setPc hi fun _ => id
    · exact h.setPc hi fun _ => id
  · cases hs

theorem store (h : s.Inv) {pid : Int} (hs : s.store i pid = some s') : s'.Inv := by
  unfold Crew.store at hs
  split at hs
  · rename_i a n hpc
    obtain rfl := Option.some.inj hs
    exact h.leave (by rw [hpc]; rfl) rfl
  · cases hs

theorem task_start (h : s.Inv) {task_id period_nsec : Int}
    {answers : Nat → (c : Call) → c.Answer}
    (hs : s.task_start i task_id period_nsec answers = some s') : s'.Inv := by
  unfold Crew.task_start at hs
  split_ifs at hs with hpc
  obtain rfl := Option.some.inj hs
  obtain ⟨hsame, hnone⟩ :=
    (rtapi_task_start_magic s.process task_id period_nsec []).run answers 0
  refine h.withTasks (fun m t hm => hsame m t ?_) fun m hm => hnone m ?_
  · simp only [Crew.process, hm]
  · simp only [Crew.process, hm]

theorem task_delete (h : s.Inv) {id : Int} (hs : s.task_delete i id = some s') : s'.Inv := by
  unfold Crew.task_delete at hs
  split_ifs at hs with hpc
  rcases hg : get_task s.process id with _ | ⟨n, t⟩ <;> simp only [hg] at hs
  · obtain rfl := Option.some.inj hs
    exact h
  by_cases hstate : t.state = .deleted ∨ t.state = .empty ∨ t.state = .init
  · rw [if_pos hstate] at hs
    obtain rfl := Option.some.inj hs
    exact h
  · rw [if_neg hstate] at hs
    obtain rfl := Option.some.inj hs
    obtain ⟨hv, hmagic⟩ := Crew.get_task_slot hg
    have hfree : (s.table n).held = false := by
      rw [hv]
      exact decide_eq_false (not_not.mpr hmagic)
    have hi : ∀ m, ¬ (s.pc i).Owns m := by
      rw [hpc]
      exact fun _ h => h
    exact h.take hi hfree rfl rfl ⟨_, rfl, show (0 : Int) ≠ TASK_MAGIC by decide⟩

theorem mark (h : s.Inv) (hs : s.mark i = some s') : s'.Inv := by
  unfold Crew.mark at hs
  split at hs
  · rename_i n hpc
    have hi : (s.pc i).Owns n := by
      rw [hpc]
      rfl
    have hsuits := (h n).at_place i hi
    rw [hpc] at hsuits
    obtain ⟨t, ht, hmagic⟩ := hsuits
    rw [ht] at hs
    obtain rfl := Option.some.inj hs
    exact h.goOn hi (decide_eq_true hmagic) rfl ⟨_, rfl, hmagic⟩
  · cases hs

theorem release (h : s.Inv) (hs : s.release i = some s') : s'.Inv := by
  unfold Crew.release at hs
  split at hs
  · rename_i n hpc
    obtain rfl := Option.some.inj hs
    exact h.leave (by rw [hpc]; rfl) rfl
  · cases hs

theorem step (h : s.Inv) {a : Act} (hs : Crew.step a s = some s') : s'.Inv := by
  cases a with
  | task_new i a highest lowest => exact h.task_new hs
  | cas i => exact h.cas hs
  | store i pid => exact h.store hs
  | task_start i task_id period_nsec answers => exact h.task_start hs
  | task_delete i id => exact h.task_delete hs
  | mark i => exact h.mark hs
  | release i => exact h.release hs

end Crew.Inv

theorem Crew.Reach.inv {s : Crew} (h : Crew.Reach s) : s.Inv :=
  h.invariant Crew.Inv.start fun _ _ _ hi _ hs => hi.step hs

/-- A slot holds a placeholder while a thread is about to store a task there. -/
theorem Crew.Inv.init_iff {s : Crew} (h : s.Inv) (n : Nat) :
    s.table n = .init ↔ ∃ i a, s.pc i = .fill a n := by
  constructor
  · intro hv
    have hheld : (s.table n).held = true := by rw [hv]; rfl
    obtain ⟨i, hi⟩ := (h n).held hheld
    have hsuits := (h n).at_place i hi
    rw [hv] at hsuits
    rcases hpc : s.pc i with _ | _ | ⟨a, m⟩ | m | m <;> rw [hpc] at hi hsuits
    · exact hi.elim
    · exact hi.elim
    · exact ⟨i, a, hpc.trans (congrArg _ hi)⟩
    · obtain ⟨t, ht, -⟩ := hsuits
      cases ht
    · obtain ⟨t, ht, -⟩ := hsuits
      cases ht
  · rintro ⟨i, a, hpc⟩
    have hsuits := (h n).at_place i (by rw [hpc]; rfl)
    rw [hpc] at hsuits
    exact hsuits

/-- **When the lookups agree.** -/
theorem lookups_agree_iff {s : Crew} (h : Crew.Reach s) (task_id : Int) :
    Agree s.table task_id ↔
      ¬ ∃ i a n, task_id = (n : Nat) ∧ n < MAX_TASKS ∧ s.pc i = .fill a n := by
  rw [agree_iff, not_iff_not]
  constructor
  · rintro ⟨h₀, h₁, hinit⟩
    obtain ⟨i, a, hpc⟩ := (h.inv.init_iff _).mp hinit
    exact ⟨i, a, task_id.toNat, by omega, by omega, hpc⟩
  · rintro ⟨i, a, n, rfl, hn, hpc⟩
    have hinit := (h.inv.init_iff n).mpr ⟨i, a, hpc⟩
    exact ⟨by omega, by omega, hinit⟩

/-- One thread is about to store a task in slot 0. -/
def creating : Crew :=
  (({} : Crew).setPc 0 (.scan ⟨8, 50, 2, 0, 0⟩ 0)).put 0 .init 0 (.fill ⟨8, 50, 2, 0, 0⟩ 0)

theorem creating_reach : creating.Reach := by
  have hacts : acted Crew.step [.task_new 0 ⟨8, 50, 2, 0, 0⟩ 99 1, .cas 0] {} = some creating := rfl
  exact .of_acted hacts (.of_forall (fun _ _ _ => trivial) _)

theorem lookups_agree_iff_creating : Agree creating.table 1 ∧ ¬ Agree creating.table 0 := by
  constructor
  · refine (lookups_agree_iff creating_reach 1).mpr ?_
    rintro ⟨i, a, n, hn, -, hpc⟩
    obtain rfl : n = 1 := by omega
    by_cases hi : i = 0 <;> simp [creating, Crew.put, Crew.setPc, hi] at hpc
  · intro h
    exact (lookups_agree_iff creating_reach 0).mp h ⟨0, _, 0, rfl, by decide, rfl⟩

/-- The state of task 0 is read through the placeholder. -/
theorem getstate_placeholder :
    (¬ ∀ s : Crew, s.Reach → ∀ task_id, Agree s.table task_id) ∧
      rtapi_task_getstate creating.table 0 = .error .placeholder ∧
      lookup creating.table 0 = .ok none := by
  refine ⟨fun h => ?_, rfl, rfl⟩
  obtain ⟨_, _, -, hok⟩ := (h creating creating_reach 0).safe
  cases hok

/-! ### A thread on its own

Without steps of other threads in between, the two calls are those of `Uspace/Tasks.lean`. -/

namespace Crew

variable {s : Crew} {i n k : Nat} {a : NewTask}

/-- A table that shows what the process `p` holds. -/
theorem ext_withTasks {p : Process} {s' : Crew} (hpc : s'.pc = s.pc)
    (htable : ∀ m, s'.table m = match s.table m, p.task_array m with
      | .init, _ => .init
      | _, none => .empty
      | _, some t => .task t) : s' = s.withTasks p := by
  rcases s' with ⟨table, pc⟩
  rcases s with ⟨table₀, pc₀⟩
  obtain rfl : pc = pc₀ := hpc
  obtain rfl : table = _ := funext htable
  rfl

theorem withTasks_process (s : Crew) : s.withTasks s.process = s := by
  refine (ext_withTasks rfl fun m => ?_).symm
  rcases hv : s.table m with _ | _ | t <;> simp only [process, hv]

theorem withTasks_setTask (hpc : s.pc i = .idle) (hn : s.table n ≠ .init) (t : Task) :
    s.put n (.task t) i .idle = s.withTasks (s.process.setTask n (some t)) := by
  refine ext_withTasks ?_ fun m => ?_
  · show Function.update s.pc i .idle = s.pc
    rw [← hpc, Function.update_eq_self]
  · show Function.update s.table n (.task t) m = _
    by_cases hm : m = n
    · subst hm
      rw [Function.update_self, Process.setTask_self]
      rcases hv : s.table m with _ | _ | u
      · rfl
      · exact absurd hv hn
      · rfl
    · rw [Function.update_of_ne hm, s.process.setTask_of_ne hm]
      rcases hv : s.table m with _ | _ | u <;> simp only [process, hv]

theorem withTasks_setNone {t : Task} {p : Process} (hpc : s.pc i = .idle)
    (hv : s.table n = .task t) (hp : p.task_array = (s.process.setTask n none).task_array) :
    s.put n .empty i .idle = s.withTasks p := by
  refine ext_withTasks ?_ fun m => ?_
  · show Function.update s.pc i .idle = s.pc
    rw [← hpc, Function.update_eq_self]
  · show Function.update s.table n .empty m = _
    rw [hp]
    by_cases hm : m = n
    · subst hm
      rw [Function.update_self, Process.setTask_self, hv]
    · rw [Function.update_of_ne hm, s.process.setTask_of_ne hm]
      rcases hv : s.table m with _ | _ | u <;> simp only [process, hv]

/-- A turn at a slot that is not free. -/
theorem cas_passed (hpc : s.pc i = .scan a k) (hk : k < MAX_TASKS)
    (hfull : (s.table k).is_null = false) : s.cas i = some (s.setPc i (.scan a (k + 1))) := by
  unfold cas
  rw [hpc]
  simp only [if_pos hk, hfull, Bool.false_eq_true, if_false]

/-- The loop of `allocate_task_id`, up to the first free slot. -/
theorem cas_found {d : Nat} (hpc : s.pc i = .scan a k) (hd : k + d = n) (hn : n < MAX_TASKS)
    (hnull : (s.table n).is_null = true)
    (hfull : ∀ m, k ≤ m → m < n → (s.table m).is_null = false) :
    acted step (List.replicate (d + 1) (.cas i)) s = some (s.put n .init i (.fill a n)) := by
  induction d generalizing s k with
  | zero =>
      obtain rfl : k = n := hd
      show (s.cas i).bind some = _
      unfold cas
      rw [hpc]
      simp only [if_pos hn, hnull, if_true, Option.bind_some]
  | succ d ih =>
      have hpass := cas_passed hpc (by omega) (hfull k (Nat.le_refl k) (by omega))
      rw [List.replicate_succ]
      show (s.cas i).bind (acted step _) = _
      rw [hpass, Option.bind_some]
      rw [ih (s := s.setPc i (.scan a (k + 1))) (Function.update_self ..) (by omega) hnull
        fun m hm => hfull m (by omega)]
      unfold put setPc
      rw [Function.update_idem]

/-- The loop where no slot is free. -/
theorem cas_full {d : Nat} (hpc : s.pc i = .scan a k) (hd : k + d = MAX_TASKS)
    (hfull : ∀ m, k ≤ m → m < MAX_TASKS → (s.table m).is_null = false) :
    acted step (List.replicate (d + 1) (.cas i)) s = some (s.setPc i .idle) := by
  induction d generalizing s k with
  | zero =>
      show (s.cas i).bind some = _
      unfold cas
      rw [hpc]
      simp only [if_neg (show ¬ k < MAX_TASKS by omega), Option.bind_some]
  | succ d ih =>
      have hpass := cas_passed hpc (by omega) (hfull k (Nat.le_refl k) (by omega))
      rw [List.replicate_succ]
      show (s.cas i).bind (acted step _) = _
      rw [hpass, Option.bind_some]
      rw [ih (s := s.setPc i (.scan a (k + 1))) (Function.update_self ..) (by omega)
        fun m hm => hfull m (by omega)]
      unfold setPc
      rw [Function.update_idem]

theorem is_null_iff (h : s.table n ≠ .init) :
    (s.table n).is_null = (s.process.task_array n).isNone := by
  rcases hv : s.table n with _ | _ | t
  · simp only [process, hv]
    rfl
  · exact absurd hv h
  · simp only [process, hv]
    rfl

/-- **A creation on its own** is `rtapi_task_new`. -/
theorem task_new_alone (hpc : s.pc i = .idle) (hno : ∀ m, s.table m ≠ .init)
    (l : List (Asked Process Call Call.Answer)) :
    Every (rtapi_task_new a.arg a.prio a.owner a.stacksize a.uses_fp) s.process l fun _ _ s' =>
      ∃ as, (∀ b ∈ as, b.thread = i) ∧ acted step as s = some (s.withTasks s') := by
  have hrefused : ∀ highest lowest, a.prio > highest ∨ a.prio < lowest →
      ∃ as : List Act, (∀ b ∈ as, b.thread = i) ∧
        acted step as s = some (s.withTasks s.process) := fun highest lowest h => by
    refine ⟨[.task_new i a highest lowest], by simp [Act.thread], ?_⟩
    show (s.task_new i a highest lowest).bind some = _
    unfold task_new
    rw [if_pos hpc, if_pos h, withTasks_process, Option.bind_some]
  unfold rtapi_task_new
  simp only [every_bind, every_ask]
  intro highest
  refine .ite (fun h => hrefused highest 0 (.inl h)) fun h₁ => ?_
  rw [every_bind, every_ask]
  intro lowest
  refine .ite (fun h => hrefused highest lowest (.inr h)) fun h₂ => ?_
  have hnew : s.task_new i a highest lowest = some (s.setPc i (.scan a 0)) := by
    unfold task_new
    rw [if_pos hpc, if_neg (not_or.mpr ⟨h₁, h₂⟩)]
  rw [every_bind, every_get]
  rcases hn : allocate_task_id s.process with _ | n
  · have hfull : ∀ m, 0 ≤ m → m < MAX_TASKS → (s.table m).is_null = false := fun m _ hm => by
      have hsome := List.find?_eq_none.mp hn m (List.mem_range.mpr hm)
      rw [is_null_iff (hno m)]
      exact eq_false_of_ne_true hsome
    refine ⟨.task_new i a highest lowest :: List.replicate (MAX_TASKS + 1) (.cas i), ?_, ?_⟩
    · simp [Act.thread]
    · have hloop := cas_full (s := s.setPc i (.scan a 0)) (Function.update_self ..)
        (Nat.zero_add MAX_TASKS) hfull
      show (s.task_new i a highest lowest).bind (acted step _) = _
      rw [hnew, Option.bind_some, hloop, withTasks_process]
      unfold setPc
      rw [Function.update_idem, ← hpc, Function.update_eq_self]
  · intro pid
    obtain ⟨hnone, hmem, hbefore⟩ := List.find?_range_eq_some.mp hn
    have hnull : (s.table n).is_null = true := (is_null_iff (hno n)).trans hnone
    have hfull : ∀ m, 0 ≤ m → m < n → (s.table m).is_null = false := fun m _ hm => by
      rw [is_null_iff (hno m)]
      simpa using hbefore m hm
    have hloop := cas_found (s := s.setPc i (.scan a 0)) (Function.update_self ..)
      (Nat.zero_add n) (List.mem_range.mp hmem) hnull hfull
    refine ⟨.task_new i a highest lowest :: (List.replicate (n + 1) (.cas i) ++ [.store i pid]),
      ?_, ?_⟩
    · simp [Act.thread]
    · show (s.task_new i a highest lowest).bind (acted step _) = _
      rw [hnew, Option.bind_some, acted_append hloop, ← withTasks_setTask hpc (hno n)]
      show (store _ i pid).bind some = _
      unfold store put setPc
      simp only [Function.update_self, Function.update_idem, Option.bind_some]
      rfl

/-- **A deletion on its own** is `rtapi_task_delete`. -/
theorem task_delete_alone (hpc : s.pc i = .idle) (id : Int)
    (l : List (Asked Process Call Call.Answer)) :
    Every (rtapi_task_delete id) s.process l fun _ _ s' =>
      ∃ as, (∀ b ∈ as, b.thread = i) ∧ acted step as s = some (s.withTasks s') := by
  have hrefused : s.task_delete i id = some s → ∃ as : List Act, (∀ b ∈ as, b.thread = i) ∧
      acted step as s = some (s.withTasks s.process) := fun h => by
    refine ⟨[.task_delete i id], by simp [Act.thread], ?_⟩
    show (s.task_delete i id).bind some = _
    rw [h, withTasks_process, Option.bind_some]
  unfold rtapi_task_delete
  rw [every_bind, every_get]
  rcases hg : get_task s.process id with _ | ⟨n, t⟩
  · refine hrefused ?_
    unfold task_delete
    rw [if_pos hpc, hg]
  have hstep : s.task_delete i id =
      if t.state = .deleted ∨ t.state = .empty ∨ t.state = .init then some s
      else some (s.put n (.task { t.woken with magic := 0 }) i (.mark n)) := by
    unfold task_delete
    rw [if_pos hpc, hg]
  refine .ite (fun h => hrefused (hstep.trans (if_pos (.inl h)))) fun h₁ => ?_
  refine .ite (fun h => hrefused (hstep.trans (if_pos (.inr h)))) fun h₂ => ?_
  rw [if_neg (not_or.mpr ⟨h₁, h₂⟩)] at hstep
  have hv : s.table n = .task t := (get_task_slot hg).1
  have hempty : ∀ s' : Process, s'.task_array = (s.process.setTask n none).task_array →
      ∃ as : List Act, (∀ b ∈ as, b.thread = i) ∧ acted step as s = some (s.withTasks s') := by
    intro s' hs'
    refine ⟨[.task_delete i id, .mark i, .release i], by simp [Act.thread], ?_⟩
    have hend : s.put n .empty i .idle = s.withTasks s' := withTasks_setNone hpc hv hs'
    show (s.task_delete i id).bind (acted step [.mark i, .release i]) = _
    rw [hstep, ← hend, Option.bind_some]
    show (mark _ i).bind (acted step [.release i]) = _
    unfold mark put
    simp only [Function.update_self, Function.update_idem, Option.bind_some]
    show (release _ i).bind some = _
    unfold release put
    simp only [Function.update_self, Function.update_idem, Option.bind_some]
  refine .ite (fun _ => ?_) fun _ => ?_
  · exact fun _ _ => hempty _ (by simp only [Process.setTask, Function.update_idem])
  · exact fun _ _ => hempty _ rfl

end Crew

end RTS.Uspace

import RealTimeSystem.Hal.Runs
import RealTimeSystem.Uspace.Rtapi

/-!
# System — HAL on the RTAPI of the repository

A process starts with zero-filled static data, and `hal_app_main` brings HAL up on a zero-filled
segment.  Then the library is initialised: the handle of the HAL segment is never 0, because the
first handle is that of the UUID segment.
-/

namespace RTS.Uspace

open RTS.Support RTS.Hal

variable (K : Kernel)

/-- A process before `hal_app_main`; both its segments are zero-filled. -/
def fresh : State Machine := { shm := {}, rt := {} }

/-- `hal_app_main` succeeded in a new process. -/
def Starts (s : State Machine) : Prop := hal_app_main (rtapi K) fresh = .ok 0 s

variable {K} {s : State Machine}

theorem Starts.up (h : Starts K s) : Up (rtapi K) fresh lib_name fresh.rt s :=
  (hal_app_main_spec (rtapi K) rfl).of_ok h rfl

/-- What RTAPI and the library handle are after the start. -/
structure Attached (s : State Machine) : Prop where
  live : Live s.rt.process
  refs : s.rt.process.refs = 1
  tasks : s.rt.process.task_array = fun _ => none
  mem_id : s.lib_mem_id ≠ 0

/-- Looking up a pointer changes nothing. -/
theorem getptr_process (handle : Int) (m : Machine) :
    ((rtapi K).shmem_getptr handle m).2.process = m.process :=
  perform_of_every (K := K) (m := m)
    ((rtapi_shmem_getptr_spec (l := []) handle).mono fun _ _ _ h => h.1)

theorem Starts.attached (h : Starts K s) : Attached s := by
  have hs := h.up.eq
  have hid := h.up.module
  obtain ⟨m, hs⟩ := hs
  have h₁ := perform_of_every (K := K) (m := fresh.rt) (rtapi_init_first (l := []) lib_name)
  have hid' : ¬ ((rtapi K).init lib_name fresh.rt).1 < 0 := by
    rw [hs] at hid
    exact Int.not_lt.mpr hid
  obtain ⟨hlive₁, hrefs₁, hv₁, htasks₁⟩ := h₁.resolve_left hid'
  have h₂ := perform_of_every (K := K) (m := ((rtapi K).init lib_name fresh.rt).2)
    (shmem_new_beside (l := []) hlive₁ (show HAL_KEY ≠ UUID_KEY by decide) hv₁
      ((rtapi K).init lib_name fresh.rt).1 (HAL_SIZE : Int).toNat)
  obtain ⟨hlive₂, hrefs₂, htasks₂, hr₂⟩ := h₂
  have hend : s.rt.process = (perform K (rtapi_shmem_new HAL_KEY
      ((rtapi K).init lib_name fresh.rt).1 (HAL_SIZE : Int).toNat)
      ((rtapi K).init lib_name fresh.rt).2).2.process := by
    rw [hs]
    exact getptr_process _ _
  refine ⟨by rw [hend]; exact hlive₂, ?_, ?_, by rw [hs]; exact hr₂⟩
  · rw [hend]
    exact hrefs₂.trans hrefs₁
  · rw [hend]
    exact htasks₂.trans htasks₁

theorem Starts.boots (h : Starts K s) : Boots (rtapi K) fresh s :=
  ⟨rfl, ⟨rfl, rfl, rfl⟩, .inl h, h.attached.mem_id⟩

theorem Starts.inv (h : Starts K s) : Inv s .empty := h.boots.inv

theorem Starts.reachable (h : Starts K s) : Reachable (rtapi K) s := ⟨_, _, h.boots, .start⟩

/-! ### A start and a run that compute -/

section
variable {σ α : Type}

/-- Why the program stops; `none` when it returns. -/
def stops (x : Prog σ α) (s : State σ) : Option Stop :=
  match x s with
  | .ok _ _ => none
  | .error e _ => some e

/-- What the program returns. -/
def result (x : Prog σ α) (s : State σ) : Option α :=
  match x s with
  | .ok a _ => some a
  | .error _ _ => none

/-- The state in which the program returns or stops. -/
def after (x : Prog σ α) (s : State σ) : State σ :=
  match x s with
  | .ok _ s' => s'
  | .error _ s' => s'

theorem after_eq {x : Prog σ Unit} {s : State σ} (h : stops x s = none) :
    x s = .ok () (after x s) := by
  unfold stops at h
  unfold after
  cases hx : x s with
  | ok a s' => rfl
  | error e s' => rw [hx] at h; cases h

theorem result_eq {x : Prog σ α} {s : State σ} {a : α} (h : result x s = some a) :
    x s = .ok a (after x s) := by
  unfold result at h
  unfold after
  cases hx : x s with
  | ok a' s' => rw [hx] at h; cases h; rfl
  | error e s' => rw [hx] at h; cases h

theorem stops_eq {x : Prog σ α} {s : State σ} {e : Stop} (h : stops x s = some e) :
    x s = .error e (after x s) := by
  unfold stops at h
  unfold after
  cases hx : x s with
  | ok a s' => rw [hx] at h; cases h
  | error e' s' => rw [hx] at h; cases h; rfl

/-- The operations one after the other. -/
def played (R : Rtapi σ) (ops : List Op) (s : State σ) : State σ :=
  ops.foldl (fun s op => after (op.run R) s) s

/-- Every operation returns and was `allowed`. -/
def Playable (R : Rtapi σ) (allowed : State σ → Op → Prop) : List Op → State σ → Prop
  | [], _ => True
  | op :: ops, s =>
      op.Sane ∧ allowed s op ∧ stops (op.run R) s = none ∧ Playable R allowed ops (after (op.run R) s)

theorem Playable.runs {R : Rtapi σ} {allowed : State σ → Op → Prop} {ops : List Op}
    {s₀ s : State σ} (h : Playable R allowed ops s) (hr : Runs R allowed s₀ s) :
    Runs R allowed s₀ (played R ops s) := by
  induction ops generalizing s with
  | nil => exact hr
  | cons op ops ih =>
      obtain ⟨hsane, hall, hstops, hrest⟩ := h
      exact ih hrest (hr.op op hsane hall (after_eq hstops))

end

theorem serving_ne (id : Int) : (if id = UUID_KEY then 4096 else 65536 : Addr) ≠ 0 := by
  split <;> decide

/-- A system that answers every call, and maps the segments of different keys apart. -/
def serving (n : Nat) : (c : Call) → c.Answer
  | .shmget key _ => .ok key.toNat
  | .shmat id => .ok ⟨if id = UUID_KEY then 4096 else 65536, serving_ne id, 0⟩
  | c => plain_answers n c

/-- HAL, just started. -/
def started : State Machine := after (hal_app_main (rtapi serving)) fresh

theorem started_starts : Starts serving started := by
  have h : (hal_app_main (rtapi serving) fresh) = .ok 0 started := by rfl
  exact h

theorem Playable.reachable {ops : List Op}
    (h : Playable (rtapi serving) (fun _ _ => True) ops started) :
    Reachable (rtapi serving) (played (rtapi serving) ops started) :=
  ⟨_, _, started_starts.boots, h.runs .start⟩

/-- A component with a function, and a thread that calls it. -/
def schedulingOps : List Op :=
  [.hal_init (some (lit ['c'])), .hal_export_funct (lit ['f']) 8 16 0 1 2,
    .hal_create_thread (lit ['t']) 1000000 0 50,
    .hal_add_funct_to_thread (some (lit ['f'])) (some (lit ['t'])) 1]

def scheduled : State Machine := played (rtapi serving) schedulingOps started

theorem scheduled_reachable : Reachable (rtapi serving) scheduled :=
  Playable.reachable ⟨trivial, trivial, by decide +kernel, trivial, trivial, by decide +kernel,
    trivial, trivial, by decide +kernel, trivial, trivial, by decide +kernel, trivial⟩

/-- A component, and its pin `p`. -/
def pinning : List Op :=
  [.hal_init (some (lit ['c'])), .hal_pin_new (lit ['p']) .s32 69632 2]

end RTS.Uspace

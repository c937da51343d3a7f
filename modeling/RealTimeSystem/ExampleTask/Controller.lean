import Mathlib.Algebra.Order.Ring.Int
import Mathlib.Data.List.Infix
import Mathlib.Tactic.SplitIfs

/-!
# ExampleTask — the controller

`taskController`, one call for each cycle of the thread.  Between two cycles the input pins may
take any value; the step `(int)(max_velocity * feed_rate * 0.001)` is an input too.

* **`converges_iff`**: the position reaches a fixed target without overshoot if and only if no step
  on the way leaves the range of an `int`.
* **`error_latched_iff`**: the error pin counts the mismatches of all disabled cycles, and the
  consecutive ones only where no match comes between.
-/

namespace RTS.ExampleTask

/-! ### A cycle -/

/-- What a cycle reads: the input pins, the step as computed from `max_velocity` and `feed_rate`,
and the clock. -/
structure Inputs where
  enable_in : Bool
  target_pos : Int32
  scaled : Int32 := 0
  time : Int64 := 0
  deriving DecidableEq

/-- The output pins, as `init_hal_param` leaves them by default. -/
structure Pins where
  current_pos : Int32 := 0
  running : Bool := false
  error : Bool := false
  heartbeat_out : Int32 := 0
  deriving DecidableEq

/-- The counters of `task_shared_t`. -/
structure Counters where
  heartbeat : Int32 := 0
  cycle_count : Int32 := 0
  last_wakeup_ns : Int64 := 0
  deriving DecidableEq

/-- The statics of the controller, and what the two pointers lead to. -/
structure Controller where
  last_target : Int32 := 0
  error_count : Int32 := 0
  taskHalData : Option Pins := none
  taskShared : Option Counters := none
  deriving DecidableEq

/-- The step is 1 at least. -/
def Inputs.step (i : Inputs) : Int32 := if i.scaled < 1 then 1 else i.scaled

/-- The step is added, and then compared with the target. -/
def approach (pos target step : Int32) : Int32 :=
  if pos < target then
    let pos := pos + step
    if pos > target then target else pos
  else if pos > target then
    let pos := pos - step
    if pos < target then target else pos
  else pos

/-- The controller logic: the branches of `enable`. -/
def control (i : Inputs) (c : Controller) (p : Pins) : Controller × Pins :=
  if i.enable_in then
    ({ c with
        last_target := if i.target_pos ≠ c.last_target then i.target_pos else c.last_target
        error_count := 0 },
      { p with
        current_pos := approach p.current_pos i.target_pos i.step
        running := true
        error := false })
  else if i.target_pos ≠ c.last_target then
    let error_count := c.error_count + 1
    ({ c with error_count := error_count },
      { p with running := false, error := if error_count > 10 then true else p.error })
  else (c, { p with running := false })

/-- The end of a cycle: the heartbeat is counted and mirrored. -/
def beat (i : Inputs) (c : Controller) (p : Pins) : Controller :=
  let shared := c.taskShared.map fun t =>
    { t with heartbeat := t.heartbeat + 1, cycle_count := t.cycle_count + 1 }
  { c with
    taskHalData := some { p with heartbeat_out := shared.elim 0 Counters.heartbeat }
    taskShared := shared.map fun t => { t with last_wakeup_ns := i.time } }

def taskController (i : Inputs) (c : Controller) : Controller :=
  match c.taskHalData with
  | none => c
  | some p => beat i (control i c p).1 (control i c p).2

/-- Cycles with the inputs `is`, the last one first. -/
def cycles : List Inputs → Controller → Controller
  | [], c => c
  | i :: is, c => taskController i (cycles is c)

theorem taskController_some {i : Inputs} {c : Controller} {p : Pins} (h : c.taskHalData = some p) :
    taskController i c = beat i (control i c p).1 (control i c p).2 := by
  unfold taskController
  rw [h]

/-- The pins after a cycle are those of the controller logic, but for the heartbeat. -/
theorem taskController_pins {i : Inputs} {c : Controller} {p : Pins} (h : c.taskHalData = some p) :
    ∃ n, (taskController i c).taskHalData = some { (control i c p).2 with heartbeat_out := n } := by
  rw [taskController_some h]
  exact ⟨_, rfl⟩

/-! ### One step -/

/-- A value of an `int`. -/
def Fits (x : Int) : Prop := -2 ^ 31 ≤ x ∧ x < 2 ^ 31

instance (x : Int) : Decidable (Fits x) := inferInstanceAs (Decidable (_ ∧ _))

def distance (pos target : Int32) : Nat := (target.toInt - pos.toInt).natAbs

theorem fits_toInt (x : Int32) : Fits x.toInt := ⟨x.le_toInt, x.toInt_lt⟩

/-- Reduction of a value that is less than one turn away. -/
theorem bmod_turn {x : Int} (y : Int) (h : x = y ∨ x = y + 2 ^ 32 ∨ x = y - 2 ^ 32) (hy : Fits y) :
    x.bmod (2 ^ 32) = y := by
  unfold Fits at hy
  have hbase : y.bmod (2 ^ 32) = y := Int.bmod_eq_of_le_mul_two (by omega) (by omega)
  rcases h with rfl | rfl | rfl
  · exact hbase
  · exact (Int.add_bmod_right y (2 ^ 32)).trans hbase
  · exact (Int.sub_bmod_right y (2 ^ 32)).trans hbase

section
variable {p t s : Int32} {σ : Int} {d : Nat}

/-- A step that stays in range goes towards the target, and stops there. -/
theorem approach_fits (hs : 1 ≤ s.toInt) (hσ : σ = 1 ∨ σ = -1) (ht : t.toInt = p.toInt + σ * d)
    (hf : d = 0 ∨ Fits (p.toInt + σ * s.toInt)) :
    (approach p t s).toInt = p.toInt + σ * min s.toInt d := by
  have hadd : (p + s).toInt = (p.toInt + s.toInt).bmod (2 ^ 32) := Int32.toInt_add p s
  have hsub : (p - s).toInt = (p.toInt - s.toInt).bmod (2 ^ 32) := Int32.toInt_sub p s
  unfold approach
  simp only [Int32.lt_iff_toInt_lt, gt_iff_lt]
  unfold Fits at hf
  rcases hσ with rfl | rfl
  · have hp : 0 < d → (p + s).toInt = p.toInt + s.toInt := fun h =>
      hadd.trans (bmod_turn _ (.inl rfl) ⟨by omega, by omega⟩)
    split_ifs <;> omega
  · have hp : 0 < d → (p - s).toInt = p.toInt - s.toInt := fun h =>
      hsub.trans (bmod_turn _ (.inl rfl) ⟨by omega, by omega⟩)
    split_ifs <;> omega

/-- A step out of range lands on the other side of it. -/
theorem approach_wraps (hs : 1 ≤ s.toInt) (hσ : σ = 1 ∨ σ = -1) (ht : t.toInt = p.toInt + σ * d)
    (hd : d ≠ 0) (hf : ¬ Fits (p.toInt + σ * s.toInt)) :
    (approach p t s).toInt = p.toInt + σ * s.toInt - σ * 2 ^ 32 := by
  have hadd : (p + s).toInt = (p.toInt + s.toInt).bmod (2 ^ 32) := Int32.toInt_add p s
  have hsub : (p - s).toInt = (p.toInt - s.toInt).bmod (2 ^ 32) := Int32.toInt_sub p s
  have hp := fits_toInt p
  have ht' := fits_toInt t
  have hs' := fits_toInt s
  unfold approach
  simp only [Int32.lt_iff_toInt_lt, gt_iff_lt]
  unfold Fits at *
  rcases hσ with rfl | rfl
  · have hw : (p + s).toInt = p.toInt + s.toInt - 2 ^ 32 :=
      hadd.trans (bmod_turn _ (.inr (.inl (by omega))) ⟨by omega, by omega⟩)
    split_ifs <;> omega
  · have hw : (p - s).toInt = p.toInt - s.toInt + 2 ^ 32 :=
      hsub.trans (bmod_turn _ (.inr (.inr (by omega))) ⟨by omega, by omega⟩)
    split_ifs <;> omega

end

/-! ### A fixed target -/

/-- The way from a position to a target: up or down. -/
def direction (pos target : Int32) : Int := if pos ≤ target then 1 else -1

theorem direction_cases (p t : Int32) : direction p t = 1 ∨ direction p t = -1 := by
  unfold direction
  split_ifs
  · exact .inl rfl
  · exact .inr rfl

theorem target_eq (p t : Int32) : t.toInt = p.toInt + direction p t * distance p t := by
  unfold direction distance
  simp only [Int32.le_iff_toInt_le]
  split_ifs <;> omega

/-- The cycles that a distance takes in steps of `s`. -/
def cyclesNeeded (p t s : Int32) : Nat := (distance p t + s.toInt.toNat - 1) / s.toInt.toNat

/-- The end of the last step, before it is compared with the target. -/
def lastStep (p t s : Int32) : Int := p.toInt + direction p t * (cyclesNeeded p t s * s.toInt)

section
variable {p t s : Int32} {n : Nat}

theorem cyclesNeeded_le (hs : 1 ≤ s.toInt) :
    cyclesNeeded p t s ≤ n ↔ distance p t ≤ n * s.toInt.toNat := by
  unfold cyclesNeeded
  rw [Nat.div_le_iff_le_mul_add_pred (by omega), Nat.mul_comm]
  omega

/-- Steps that stay in range up to the `n`-th lead `n` steps towards the target. -/
theorem iterate_approach (hs : 1 ≤ s.toInt)
    (hf : Fits (p.toInt + direction p t * (min n (cyclesNeeded p t s) * s.toInt))) :
    ((fun q => approach q t s)^[n] p).toInt =
      p.toInt + direction p t * min (n * s.toInt) (distance p t) := by
  have hp := fits_toInt p
  have ht := fits_toInt t
  have hend := target_eq p t
  have hσ := direction_cases p t
  obtain ⟨k, hk⟩ : ∃ k : Nat, s.toInt = k := ⟨s.toInt.toNat, by omega⟩
  have hneed : ∀ n, cyclesNeeded p t s ≤ n ↔ distance p t ≤ n * k := fun n => by
    rw [cyclesNeeded_le hs, hk, Int.toNat_natCast]
  generalize direction p t = σ at *
  generalize distance p t = d at *
  generalize cyclesNeeded p t s = N at *
  rw [hk] at hf ⊢
  induction n with
  | zero =>
      show p.toInt = _
      simp
  | succ n ih =>
      have hsucc : ((n + 1 : Nat) : Int) * k = n * k + k := by
        rw [Int.natCast_succ, Int.add_mul, Int.one_mul]
      have hn := hneed n
      have hcast : ((n * k : Nat) : Int) = n * k := Int.natCast_mul n k
      rw [Function.iterate_succ_apply']
      by_cases hlt : n < N
      · -- one more step on the way
        rw [show min (n + 1) N = n + 1 by omega, hsucc] at hf
        have hrange : Fits (p.toInt + σ * ((min n N : Nat) * k)) := by
          rw [show min n N = n by omega]
          unfold Fits at *
          rcases hσ with rfl | rfl <;> omega
        have hq := ih hrange
        rw [Int.min_eq_left (by omega)] at hq
        have hleft : ((d - n * k : Nat) : Int) = d - n * k := by omega
        rw [approach_fits (d := d - n * k) hs hσ, hq, hk, hleft, hsucc]
        · rcases hσ with rfl | rfl <;> omega
        · rw [hq, hleft]
          rcases hσ with rfl | rfl <;> omega
        · right
          rw [hq, hk]
          rcases hσ with rfl | rfl <;> (unfold Fits at *; omega)
      · -- the target is reached
        rw [show min (n + 1) N = min n N by omega] at hf
        have hq := ih hf
        rw [Int.min_eq_right (by omega)] at hq
        rw [approach_fits (d := 0) hs hσ (by rw [hq, hend]; simp) (.inl rfl), hq, hsucc,
          Int.min_eq_right (by omega), Int.min_eq_right (by omega)]
        simp

/-- Where the last step stays in range, every step does. -/
theorem iterate_of_fits (hs : 1 ≤ s.toInt) (hf : Fits (lastStep p t s)) (n : Nat) :
    ((fun q => approach q t s)^[n] p).toInt =
      p.toInt + direction p t * min (n * s.toInt) (distance p t) := by
  refine iterate_approach hs ?_
  have hp := fits_toInt p
  have hle : ((min n (cyclesNeeded p t s) : Nat) : Int) * s.toInt ≤ cyclesNeeded p t s * s.toInt :=
    Int.mul_le_mul_of_nonneg_right (by omega) (by omega)
  have hpos : 0 ≤ ((min n (cyclesNeeded p t s) : Nat) : Int) * s.toInt :=
    Int.mul_nonneg (by omega) (by omega)
  unfold lastStep Fits at *
  rcases direction_cases p t with hσ | hσ <;> rw [hσ] at hf ⊢ <;> omega

/-- The step that leaves the range leads away from the target. -/
theorem distance_grows (hs : 1 ≤ s.toInt) (hf : ¬ Fits (lastStep p t s)) :
    distance ((fun q => approach q t s)^[cyclesNeeded p t s - 1] p) t <
      distance ((fun q => approach q t s)^[cyclesNeeded p t s - 1 + 1] p) t := by
  have hp := fits_toInt p
  have ht := fits_toInt t
  have hs' := fits_toInt s
  have hend := target_eq p t
  have hσ := direction_cases p t
  obtain ⟨k, hk⟩ : ∃ k : Nat, s.toInt = k := ⟨s.toInt.toNat, by omega⟩
  have hneed : ∀ n, cyclesNeeded p t s ≤ n ↔ distance p t ≤ n * k := fun n => by
    rw [cyclesNeeded_le hs, hk, Int.toNat_natCast]
  have hrun := iterate_approach (p := p) (t := t) (n := cyclesNeeded p t s - 1) hs
  unfold lastStep at hf
  rw [Function.iterate_succ_apply']
  generalize hq : (fun q => approach q t s)^[cyclesNeeded p t s - 1] p = q at *
  generalize direction p t = σ at *
  generalize hd : distance p t = d at *
  rcases hN : cyclesNeeded p t s with _ | N
  · rw [hN] at hf
    exact absurd (by simpa using hp) hf
  rw [hN] at hf hneed hrun
  have hlt := hneed N
  have hcast : ((N * k : Nat) : Int) = N * k := Int.natCast_mul N k
  have hsucc : ((N + 1 : Nat) : Int) * k = N * k + k := by
    rw [Int.natCast_succ, Int.add_mul, Int.one_mul]
  -- the last position on the way, and what is left
  rw [Nat.add_sub_cancel, show min N (N + 1) = N by omega, hk, Int.min_eq_left (by omega)] at hrun
  replace hrun := hrun (by
    unfold Fits at *
    rcases hσ with rfl | rfl <;> omega)
  have hleft : ((d - N * k : Nat) : Int) = d - N * k := by omega
  rw [hk, hsucc] at hf
  have hwrap := approach_wraps (p := q) (t := t) (σ := σ) (d := d - N * k) hs hσ
    (by rw [hrun, hleft]; rcases hσ with rfl | rfl <;> omega) (by omega)
    (by
      rw [hrun, hk]
      unfold Fits at *
      rcases hσ with rfl | rfl <;> omega)
  unfold distance
  unfold Fits at *
  rw [hwrap, hrun]
  rcases hσ with rfl | rfl <;> omega

end

/-! ### Convergence -/

/-- An enabled cycle with the target `t` and the step `s`. -/
structure Inputs.Drives (i : Inputs) (t s : Int32) : Prop where
  enabled : i.enable_in = true
  target : i.target_pos = t
  step : i.step = s

def Controller.position (c : Controller) : Option Int32 := c.taskHalData.map Pins.current_pos

/-- From the position `p`, each cycle covers the step or what is left to the target `t`, and the
target is reached in as many cycles as the distance takes, and kept. -/
structure Converges (c : Controller) (p t s : Int32) : Prop where
  moves : ∀ i : Inputs, i.Drives t s → ∃ q, (taskController i c).position = some q ∧
    q.toInt = p.toInt + direction p t * min s.toInt (distance p t)
  shrinks : ∀ (i : Inputs) (is : List Inputs), (∀ j ∈ i :: is, j.Drives t s) →
    ∃ q q', (cycles is c).position = some q ∧ (cycles (i :: is) c).position = some q' ∧
      distance q' t ≤ distance q t
  reached : ∀ is : List Inputs, (∀ j ∈ is, j.Drives t s) →
    ((cycles is c).position = some t ↔ cyclesNeeded p t s ≤ is.length)

section
variable {c : Controller} {p t s : Int32} {i : Inputs} {is : List Inputs}

theorem position_taskController (hi : i.Drives t s) (hc : c.position = some p) :
    (taskController i c).position = some (approach p t s) := by
  obtain ⟨ps, hps, rfl⟩ := Option.map_eq_some_iff.mp hc
  obtain ⟨n, hn⟩ := taskController_pins (i := i) hps
  unfold Controller.position
  rw [hn]
  unfold control
  rw [if_pos hi.enabled, hi.target, hi.step]
  rfl

theorem position_cycles (his : ∀ j ∈ is, j.Drives t s) (hc : c.position = some p) :
    (cycles is c).position = some ((fun q => approach q t s)^[is.length] p) := by
  induction is with
  | nil => exact hc
  | cons i is ih =>
      have hrest := ih fun j hj => his j (List.mem_cons_of_mem _ hj)
      rw [List.length_cons, Function.iterate_succ_apply']
      exact position_taskController (his i List.mem_cons_self) hrest

/-- **The position converges without overshoot** if and only if the last step on the way stays in
the range of an `int`. -/
theorem converges_iff (hc : c.position = some p) (hs : 1 ≤ s.toInt) :
    Converges c p t s ↔ Fits (lastStep p t s) := by
  constructor
  · intro h
    by_contra hf
    -- the cycles to the last step, and one more
    let i : Inputs := { enable_in := true, target_pos := t, scaled := s }
    have hi : i.Drives t s := ⟨rfl, rfl, if_neg (by
      show ¬ s < 1
      rw [Int32.lt_iff_toInt_lt]
      exact Int.not_lt.mpr hs)⟩
    have hall : ∀ n, ∀ j ∈ List.replicate n i, j.Drives t s := fun n j hj =>
      List.eq_of_mem_replicate hj ▸ hi
    obtain ⟨q, q', hq, hq', hle⟩ := h.shrinks i (List.replicate (cyclesNeeded p t s - 1) i)
      (hall (cyclesNeeded p t s - 1 + 1))
    rw [position_cycles (hall _) hc, List.length_replicate] at hq
    rw [← List.replicate_succ, position_cycles (hall _) hc, List.length_replicate] at hq'
    have hgrows := distance_grows hs hf
    rw [Option.some.inj hq, Option.some.inj hq'] at hgrows
    omega
  · intro hf
    have hrun := fun n => iterate_of_fits (p := p) (t := t) hs hf n
    have hend := target_eq p t
    have hσ := direction_cases p t
    refine ⟨fun i hi => ?_, fun i is his => ?_, fun is his => ?_⟩
    · refine ⟨_, position_taskController hi hc, ?_⟩
      simpa using hrun 1
    · have hrest := position_cycles (fun j hj => his j (List.mem_cons_of_mem _ hj)) hc
      refine ⟨_, _, hrest, position_cycles his hc, ?_⟩
      have hq := hrun is.length
      have hq' := hrun (is.length + 1)
      rw [Int.natCast_succ, Int.add_mul, Int.one_mul] at hq'
      have hpos : 0 ≤ (is.length : Int) * s.toInt := Int.mul_nonneg (by omega) (by omega)
      unfold distance at *
      rw [List.length_cons, hq, hq']
      rcases hσ with hσ | hσ <;> rw [hσ] at hend ⊢ <;> omega
    · have hq := hrun is.length
      rw [position_cycles his hc, Option.some.injEq, ← Int32.toInt_inj, hq, cyclesNeeded_le hs]
      have hcast : ((is.length * s.toInt.toNat : Nat) : Int) = is.length * s.toInt := by
        rw [Int.natCast_mul, Int.toNat_of_nonneg (by omega)]
      rcases hσ with hσ | hσ <;> rw [hσ] at hend ⊢ <;> omega

/-- Three cycles from 0 to 8 in steps of 3. -/
theorem converges_iff_sample :
    Converges { taskHalData := some {} } 0 8 3 ∧ cyclesNeeded 0 8 3 = 3 :=
  ⟨(converges_iff (c := { taskHalData := some {} }) (p := 0) (t := 8) (s := 3) rfl
    (by decide)).mpr (by decide), by decide⟩

/-- Seven counts below the largest target, in steps of 1000. -/
theorem overshoots : ¬ ∀ (c : Controller) (p t s : Int32), c.position = some p → 1 ≤ s.toInt →
    s.toInt ≤ 4294968 → Converges c p t s := by
  intro h
  have hconv := h { taskHalData := some { current_pos := 2147483640 } } 2147483640 2147483647 1000
    rfl (by decide) (by decide)
  exact absurd ((converges_iff rfl (by decide)).mp hconv) (by decide)

end

/-! ### The error pin -/

/-- The disabled cycles since the last enabled one, the last one first. -/
def disabled (is : List Inputs) : List Inputs := is.takeWhile fun i => !i.enable_in

/-- The target of the last enabled cycle; `last_target` starts as 0. -/
def seen : List Inputs → Int32
  | [] => 0
  | i :: is => if i.enable_in then i.target_pos else seen is

/-- The disabled cycles with another target than that of the last enabled one. -/
def mismatches (is : List Inputs) : Nat := (disabled is).countP (·.target_pos ≠ seen is)

/-- More than ten disabled cycles in a row had another target. -/
def Latched (is : List Inputs) : Prop :=
  ∃ run, run <:+: disabled is ∧ 10 < run.length ∧ ∀ i ∈ run, i.target_pos ≠ seen is

/-- The error pin is set. -/
def Controller.errs (c : Controller) : Prop := ∃ p, c.taskHalData = some p ∧ p.error = true

/-- The controller before its first cycle, as `init_hal_param` leaves the pins. -/
def Controller.initial (shared : Option Counters) : Controller :=
  { taskHalData := some {}, taskShared := shared }

/-- The statics and the error pin after the cycles `is`. -/
structure Tracks (is : List Inputs) (c : Controller) : Prop where
  target : c.last_target = seen is
  count : c.error_count = Int32.ofNat (mismatches is)
  error : ∃ p, c.taskHalData = some p ∧ (p.error = true ↔ 10 < mismatches is)

section
variable {is : List Inputs} {i : Inputs} {c : Controller}

theorem mismatches_enabled (hi : i.enable_in = true) : mismatches (i :: is) = 0 := by
  simp [mismatches, disabled, hi]

theorem mismatches_disabled (hi : i.enable_in = false) :
    mismatches (i :: is) = mismatches is + if i.target_pos ≠ seen is then 1 else 0 := by
  simp [mismatches, disabled, seen, hi, List.countP_cons]

theorem Tracks.initial (shared : Option Counters) : Tracks [] (.initial shared) :=
  ⟨rfl, rfl, {}, rfl, by decide⟩

/-- One cycle. -/
theorem Tracks.step (h : Tracks is c) (i : Inputs) : Tracks (i :: is) (taskController i c) := by
  obtain ⟨p, hp, herr⟩ := h.error
  rw [taskController_some hp]
  unfold control
  cases hi : i.enable_in with
  | true =>
      rw [if_pos rfl]
      refine ⟨?_, ?_, _, rfl, ?_⟩
      · show (if i.target_pos ≠ c.last_target then i.target_pos else c.last_target) = _
        rw [seen, if_pos hi]
        split_ifs with hne
        · rfl
        · exact (not_not.mp hne).symm
      · rw [mismatches_enabled hi]
        rfl
      · rw [mismatches_enabled hi]
        exact iff_of_false Bool.false_ne_true (by omega)
  | false =>
      have hseen : seen (i :: is) = c.last_target := by simp [seen, hi, h.target]
      have hcount : mismatches (i :: is) =
          mismatches is + if i.target_pos ≠ seen is then 1 else 0 := mismatches_disabled hi
      rw [← h.target] at hcount
      rw [if_neg (by decide)]
      split_ifs with hne
      · -- one mismatch more; the count may wrap, but not before the pin is set
        rw [if_pos hne] at hcount
        have hsucc : c.error_count + 1 = Int32.ofNat (mismatches is + 1) := by
          rw [h.count, Int32.ofNat_add]
          rfl
        refine ⟨hseen.symm, ?_, _, rfl, ?_⟩
        · rw [hcount]
          exact hsucc
        · rw [hcount]
          show (if c.error_count + 1 > 10 then true else p.error) = true ↔ _
          rw [hsucc]
          by_cases hbig : 10 < mismatches is
          · rw [herr.mpr hbig, ite_self]
            exact iff_of_true rfl (by omega)
          · have hlt : Int32.ofNat (mismatches is + 1) > 10 ↔ 10 < mismatches is + 1 := by
              rw [gt_iff_lt, Int32.lt_iff_toInt_lt, Int32.toInt_ofNat_of_lt (by omega),
                show (10 : Int32).toInt = 10 from rfl]
              omega
            split_ifs with hgt
            · exact iff_of_true rfl (hlt.mp hgt)
            · rw [herr]
              exact iff_of_false hbig fun h => hgt (hlt.mpr h)
      · rw [if_neg hne, Nat.add_zero] at hcount
        refine ⟨hseen.symm, ?_, _, rfl, ?_⟩
        · rw [hcount]
          exact h.count
        · rw [hcount]
          exact herr

/-- A run of eleven starts at some cycle. -/
theorem latched_iff : Latched is ↔ ∃ l ∈ (disabled is).tails, 10 < l.length ∧
    ∀ i ∈ l.take 11, i.target_pos ≠ seen is := by
  constructor
  · rintro ⟨run, hrun, hlen, hne⟩
    obtain ⟨l, ⟨rest, rfl⟩, hl⟩ := List.infix_iff_prefix_suffix.mp hrun
    refine ⟨run ++ rest, (List.mem_tails _ _).mpr hl, ?_, fun i hi => ?_⟩
    · rw [List.length_append]
      omega
    · rw [List.take_append_of_le_length hlen] at hi
      exact hne i (List.mem_of_mem_take hi)
  · rintro ⟨l, hl, hlen, hne⟩
    refine ⟨l.take 11, ?_, ?_, hne⟩
    · exact List.infix_iff_prefix_suffix.mpr ⟨l, List.take_prefix 11 l, (List.mem_tails _ _).mp hl⟩
    · rw [List.length_take]
      omega

instance (is : List Inputs) : Decidable (Latched is) := decidable_of_iff' _ latched_iff

/-- A run of mismatches is among them. -/
theorem Latched.mismatches (h : Latched is) : 10 < mismatches is := by
  obtain ⟨run, hrun, hlen, hne⟩ := h
  calc 10 < run.length := hlen
    _ = run.countP (·.target_pos ≠ seen is) := by
      rw [List.countP_eq_length.mpr fun i hi => by simpa using hne i hi]
    _ ≤ (disabled is).countP (·.target_pos ≠ seen is) := hrun.sublist.countP_le

theorem tracks_cycles (is : List Inputs) (shared : Option Counters) :
    Tracks is (cycles is (.initial shared)) := by
  induction is with
  | nil => exact .initial shared
  | cons i is ih => exact ih.step i

/-- The error pin counts all mismatches since the last enabled cycle. -/
theorem errs_iff (is : List Inputs) (shared : Option Counters) :
    (cycles is (.initial shared)).errs ↔ 10 < mismatches is := by
  obtain ⟨p, hp, herr⟩ := (tracks_cycles is shared).error
  constructor
  · rintro ⟨p', hp', he⟩
    obtain rfl : p = p' := Option.some.inj (hp.symm.trans hp')
    exact herr.mp he
  · intro hlt
    exact ⟨p, hp, herr.mpr hlt⟩

/-- **The error pin is set by consecutive mismatches** if and only if there were ten at most in all,
or more than ten in a row. -/
theorem error_latched_iff (is : List Inputs) (shared : Option Counters) :
    ((cycles is (.initial shared)).errs ↔ Latched is) ↔ mismatches is ≤ 10 ∨ Latched is := by
  rw [errs_iff]
  have hrun : Latched is → 10 < mismatches is := Latched.mismatches
  constructor
  · intro h
    by_cases hle : mismatches is ≤ 10
    · exact .inl hle
    · exact .inr (h.mp (by omega))
  · rintro (hle | hl)
    · exact iff_of_false (by omega) fun hl => absurd (hrun hl) (by omega)
    · exact iff_of_true (hrun hl) hl

/-- A disabled cycle. -/
def off (target : Int32) : Inputs := { enable_in := false, target_pos := target }

/-- Ten mismatches, a match, and one mismatch more. -/
def comingAndGoing : List Inputs := off 7 :: off 0 :: List.replicate 10 (off 7)

theorem comingAndGoing_latched : ¬ ∀ (is : List Inputs) (shared : Option Counters),
    (cycles is (.initial shared)).errs ↔ Latched is := by
  intro h
  rcases (error_latched_iff comingAndGoing none).mp (h comingAndGoing none) with hle | hl
  · exact absurd hle (by decide)
  · exact absurd hl (by decide)

end

end RTS.ExampleTask

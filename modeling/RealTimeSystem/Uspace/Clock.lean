import Mathlib.Algebra.Order.Group.Abs
import Mathlib.Algebra.Order.Ring.Int
import Mathlib.Logic.Function.Basic
import Mathlib.Tactic.Set
import Mathlib.Tactic.SplitIfs

/-!
# RTAPI — times, and when a task wakes up

`struct timespec` and the four helpers that compute with it, over an arbitrary store of them, so
that two references may name one object.  `time_t`, `long` and `unsigned long` are words of 64 bits.

**The schedule does not drift** (`schedule_exact`).  The helpers compute exact totals, and
`Posix::wait` moves the deadline by the period and the correction in force, never by what the clock
reads.
-/

namespace RTS.Uspace

structure Timespec where
  tv_sec : Int64 := 0
  tv_nsec : Int64 := 0
  deriving DecidableEq

namespace Timespec

/-- The nanoseconds a timespec stands for. -/
def total (t : Timespec) : Int := t.tv_sec.toInt * 1000000000 + t.tv_nsec.toInt

structure Normal (t : Timespec) : Prop where
  nonneg : 0 ≤ t.tv_nsec.toInt
  lt : t.tv_nsec.toInt < 1000000000

instance (t : Timespec) : Decidable t.Normal :=
  decidable_of_iff (0 ≤ t.tv_nsec.toInt ∧ t.tv_nsec.toInt < 1000000000)
    ⟨fun h => ⟨h.1, h.2⟩, fun h => ⟨h.nonneg, h.lt⟩⟩

/-- `t` is the normal timespec of `x` nanoseconds. -/
structure Is (t : Timespec) (x : Int) : Prop where
  normal : t.Normal
  total : t.total = x

end Timespec

/-- The seconds of `x` nanoseconds are a `time_t`. -/
def Seconds (x : Int) : Prop := -2 ^ 63 * 1000000000 ≤ x ∧ x < 2 ^ 63 * 1000000000

instance (x : Int) : Decidable (Seconds x) := inferInstanceAs (Decidable (_ ∧ _))

/-! ### The helpers -/

section Helpers

variable {α : Type} [DecidableEq α]

def ONE_SEC_IN_NS : UInt64 := 1000000000

theorem one_sec_le {nsec : UInt64} : ONE_SEC_IN_NS ≤ nsec ↔ 1000000000 ≤ nsec.toNat :=
  UInt64.le_iff_toNat_le

theorem sub_second {nsec : UInt64} (h : ONE_SEC_IN_NS ≤ nsec) :
    (nsec - ONE_SEC_IN_NS).toNat = nsec.toNat - 1000000000 :=
  UInt64.toNat_sub_of_le _ _ h

/-- The loop of `rtapi_timespec_advance`. -/
def wholeSeconds (sec : Int64) (nsec : UInt64) : Int64 × UInt64 :=
  if ONE_SEC_IN_NS ≤ nsec then wholeSeconds (sec + 1) (nsec - ONE_SEC_IN_NS) else (sec, nsec)
termination_by nsec.toNat
decreasing_by
  rename_i h
  have := one_sec_le.mp h
  rw [sub_second h]
  omega

def rtapi_timespec_advance (m : α → Timespec) (result src : α) (nsec : UInt64) : α → Timespec :=
  let (sec, nsec) := wholeSeconds (m src).tv_sec nsec
  let nsec := nsec + (m src).tv_nsec.toUInt64
  let (sec, nsec) :=
    if ONE_SEC_IN_NS ≤ nsec then (sec + 1, nsec - ONE_SEC_IN_NS) else (sec, nsec)
  let m := Function.update m result { m result with tv_sec := sec }
  Function.update m result { m result with tv_nsec := nsec.toInt64 }

def rtapi_timespec_add (m : α → Timespec) (result ta tb : α) : α → Timespec :=
  let m := Function.update m result { m result with tv_sec := (m ta).tv_sec + (m tb).tv_sec }
  let m := Function.update m result { m result with tv_nsec := (m ta).tv_nsec + (m tb).tv_nsec }
  if (m result).tv_nsec ≥ 1000000000 then
    let m := Function.update m result { m result with tv_sec := (m result).tv_sec + 1 }
    Function.update m result { m result with tv_nsec := (m result).tv_nsec - 1000000000 }
  else m

def rtapi_timespec_less (ta tb : Timespec) : Bool :=
  if ta.tv_sec < tb.tv_sec then true
  else if ta.tv_sec > tb.tv_sec then false
  else ta.tv_nsec < tb.tv_nsec

def timespecsub (m : α → Timespec) (tvp uvp vvp : α) : α → Timespec :=
  let m := Function.update m vvp { m vvp with tv_sec := (m tvp).tv_sec - (m uvp).tv_sec }
  let m := Function.update m vvp { m vvp with tv_nsec := (m tvp).tv_nsec - (m uvp).tv_nsec }
  if (m vvp).tv_nsec < 0 then
    let m := Function.update m vvp { m vvp with tv_sec := (m vvp).tv_sec - 1 }
    Function.update m vvp { m vvp with tv_nsec := (m vvp).tv_nsec + 1000000000 }
  else m

def TIMER_ABSTIME : Int := 1

/-- `rtapi_clock_nanosleep` with its locals `now` and `request`, where the C library has no
`clock_nanosleep`: the sleep it asks of `nanosleep`, or its error. -/
def rtapi_clock_nanosleep (now request : α) (clock_gettime : Int × Timespec) (flags : Int)
    (prequest : α) (pnow : Option α) (m : α → Timespec) : (α → Timespec) × Except Int Timespec :=
  if flags = 0 then (m, .ok (m prequest))
  else if flags ≠ TIMER_ABSTIME then (m, .error (-1))
  else
    match pnow with
    | some pnow =>
        let m := timespecsub m prequest pnow request
        (m, .ok (m request))
    | none =>
        if clock_gettime.1 < 0 then (m, .error clock_gettime.1)
        else
          let m := Function.update m now clock_gettime.2
          let m := timespecsub m prequest now request
          (m, .ok (m request))

/-! ### What they compute -/

/-- A timespec is right when its seconds are right modulo a word. -/
theorem Timespec.is_of {t : Timespec} {q r : Int} (hs : t.tv_sec.toInt = q.bmod (2 ^ 64))
    (hn : t.tv_nsec.toInt = r) (h0 : 0 ≤ r) (hr : r < 1000000000)
    (hx : Seconds (q * 1000000000 + r)) : t.Is (q * 1000000000 + r) := by
  obtain ⟨hlo, hhi⟩ := hx
  have hq : q.bmod (2 ^ 64) = q := Int.bmod_eq_of_le (by omega) (by omega)
  refine ⟨⟨by omega, by omega⟩, ?_⟩
  rw [Timespec.total, hs, hn, hq]

theorem toInt_add_one (x : Int64) : (x + 1).toInt = (x.toInt + 1).bmod (2 ^ 64) :=
  Int64.toInt_add x 1

theorem toInt_sub_one (x : Int64) : (x - 1).toInt = (x.toInt - 1).bmod (2 ^ 64) :=
  Int64.toInt_sub x 1

theorem toInt_add_second {x : Int64} (h : x.toInt < 0) :
    (x + 1000000000).toInt = x.toInt + 1000000000 := by
  have hle := x.le_toInt
  have hs : (1000000000 : Int64).toInt = 1000000000 := rfl
  rw [Int64.toInt_add, hs, Int.bmod_eq_of_le (by omega) (by omega)]

theorem toInt_sub_second {x : Int64} (h : 0 ≤ x.toInt) :
    (x - 1000000000).toInt = x.toInt - 1000000000 := by
  have hlt := x.toInt_lt
  have hs : (1000000000 : Int64).toInt = 1000000000 := rfl
  rw [Int64.toInt_sub, hs, Int.bmod_eq_of_le (by omega) (by omega)]

/-- The loop leaves the remainder, and has counted the quotient. -/
theorem wholeSeconds_spec (sec : Int64) (nsec : UInt64) :
    (wholeSeconds sec nsec).1.toInt = (sec.toInt + (nsec.toNat / 1000000000 : Nat)).bmod (2 ^ 64) ∧
      (wholeSeconds sec nsec).2.toNat = nsec.toNat % 1000000000 := by
  induction sec, nsec using wholeSeconds.induct with
  | case1 sec nsec h ih =>
      have hle := one_sec_le.mp h
      have hq : nsec.toNat / 1000000000 = (nsec.toNat - 1000000000) / 1000000000 + 1 := by omega
      rw [wholeSeconds, if_pos h, ih.1, ih.2, sub_second h, toInt_add_one, Int.bmod_add_bmod, hq]
      exact ⟨by congr 1; omega, by omega⟩
  | case2 sec nsec h =>
      have hlt : nsec.toNat < 1000000000 := by rw [one_sec_le] at h; omega
      rw [wholeSeconds, if_neg h, Nat.div_eq_of_lt hlt, Nat.mod_eq_of_lt hlt]
      exact ⟨by simp, rfl⟩

/-- Two fields stored one after the other. -/
theorem update_fields (m : α → Timespec) (a : α) (x y : Int64) :
    let m' := Function.update m a { m a with tv_sec := x }
    Function.update m' a { m' a with tv_nsec := y } = Function.update m a ⟨x, y⟩ := by
  simp

/-- The nanoseconds are read after the seconds are written, which leaves them alone. -/
theorem kept_nsec (m : α → Timespec) (a b : α) (x : Int64) :
    (Function.update m a { m a with tv_sec := x } b).tv_nsec = (m b).tv_nsec := by
  by_cases h : b = a
  · rw [h, Function.update_self]
  · rw [Function.update_of_ne h]

/-- The nanoseconds of the loop and of the source make less than two seconds. -/
theorem rest_toNat {src : Timespec} (hs : src.Normal) (nsec : UInt64) :
    ((wholeSeconds src.tv_sec nsec).2 + src.tv_nsec.toUInt64).toNat =
      nsec.toNat % 1000000000 + src.tv_nsec.toInt.toNat := by
  have hle : (0 : Int64) ≤ src.tv_nsec := Int64.le_iff_toInt_le.mpr hs.nonneg
  have hlt := hs.lt
  rw [UInt64.toNat_add, (wholeSeconds_spec _ _).2, Int64.toNat_toUInt64_of_le hle,
    Int64.toNatClampNeg]
  omega

theorem toInt64_toInt {n : UInt64} (h : n.toNat < 2 ^ 63) : n.toInt64.toInt = n.toNat := by
  rw [← Int64.toInt_ofNat_of_lt h, ← UInt64.toInt64_ofNat', UInt64.ofNat_toNat]

/-- **Advancing is exact**, also where the result is the source. -/
theorem rtapi_timespec_advance_is (m : α → Timespec) (result src : α) {nsec : UInt64}
    (hs : (m src).Normal) (hx : Seconds ((m src).total + nsec.toNat)) :
    ∃ t, t.Is ((m src).total + nsec.toNat) ∧
      rtapi_timespec_advance m result src nsec = Function.update m result t := by
  have hrest := rest_toNat hs nsec
  have hsec := (wholeSeconds_spec (m src).tv_sec nsec).1
  obtain ⟨h0, hlt⟩ := hs
  unfold rtapi_timespec_advance
  simp only [update_fields]
  split_ifs with hc
  · -- the nanoseconds carry into the seconds
    refine ⟨_, ?_, rfl⟩
    have hc := one_sec_le.mp hc
    have hx' : (m src).total + nsec.toNat =
        ((m src).tv_sec.toInt + (nsec.toNat / 1000000000 : Nat) + 1) * 1000000000 +
          ((nsec.toNat % 1000000000 + (m src).tv_nsec.toInt.toNat - 1000000000 : Nat) : Int) := by
      unfold Timespec.total
      omega
    rw [hx'] at hx ⊢
    refine Timespec.is_of ?_ ?_ (by omega) (by omega) hx
    · rw [toInt_add_one, hsec, Int.bmod_add_bmod]
    · rw [toInt64_toInt (by rw [sub_second (one_sec_le.mpr hc)]; omega),
        sub_second (one_sec_le.mpr hc), hrest]
  · refine ⟨_, ?_, rfl⟩
    rw [one_sec_le] at hc
    have hx' : (m src).total + nsec.toNat =
        ((m src).tv_sec.toInt + (nsec.toNat / 1000000000 : Nat)) * 1000000000 +
          ((nsec.toNat % 1000000000 + (m src).tv_nsec.toInt.toNat : Nat) : Int) := by
      unfold Timespec.total
      omega
    rw [hx'] at hx ⊢
    refine Timespec.is_of hsec ?_ (by omega) (by omega) hx
    rw [toInt64_toInt (by rw [hrest]; omega), hrest]

/-- **Adding is exact.** -/
theorem rtapi_timespec_add_is (m : α → Timespec) (result ta tb : α) (ha : (m ta).Normal)
    (hb : (m tb).Normal) (hx : Seconds ((m ta).total + (m tb).total)) :
    ∃ t, t.Is ((m ta).total + (m tb).total) ∧
      rtapi_timespec_add m result ta tb = Function.update m result t := by
  obtain ⟨ha0, ha1⟩ := ha
  obtain ⟨hb0, hb1⟩ := hb
  have hsec := Int64.toInt_add (m ta).tv_sec (m tb).tv_sec
  have hnsec : ((m ta).tv_nsec + (m tb).tv_nsec).toInt =
      (m ta).tv_nsec.toInt + (m tb).tv_nsec.toInt := by
    rw [Int64.toInt_add, Int.bmod_eq_of_le (by omega) (by omega)]
  simp only [rtapi_timespec_add, kept_nsec, Function.update_self, Function.update_idem]
  split_ifs with hc <;> refine ⟨_, ?_, rfl⟩ <;> rw [ge_iff_le, Int64.le_iff_toInt_le, hnsec] at hc
  · have hc : 1000000000 ≤ (m ta).tv_nsec.toInt + (m tb).tv_nsec.toInt := hc
    have hx' : (m ta).total + (m tb).total =
        ((m ta).tv_sec.toInt + (m tb).tv_sec.toInt + 1) * 1000000000 +
          ((m ta).tv_nsec.toInt + (m tb).tv_nsec.toInt - 1000000000) := by
      unfold Timespec.total
      omega
    rw [hx'] at hx ⊢
    refine Timespec.is_of ?_ ?_ (by omega) (by omega) hx
    · rw [toInt_add_one, hsec, Int.bmod_add_bmod]
    · rw [toInt_sub_second (by omega), hnsec]
  · have hc : ¬ 1000000000 ≤ (m ta).tv_nsec.toInt + (m tb).tv_nsec.toInt := hc
    have hx' : (m ta).total + (m tb).total =
        ((m ta).tv_sec.toInt + (m tb).tv_sec.toInt) * 1000000000 +
          ((m ta).tv_nsec.toInt + (m tb).tv_nsec.toInt) := by
      unfold Timespec.total
      omega
    rw [hx'] at hx ⊢
    exact Timespec.is_of hsec hnsec (by omega) (by omega) hx

/-- **Subtracting is exact.** -/
theorem timespecsub_is (m : α → Timespec) (tvp uvp vvp : α) (ha : (m tvp).Normal)
    (hb : (m uvp).Normal) (hx : Seconds ((m tvp).total - (m uvp).total)) :
    ∃ t, t.Is ((m tvp).total - (m uvp).total) ∧
      timespecsub m tvp uvp vvp = Function.update m vvp t := by
  obtain ⟨ha0, ha1⟩ := ha
  obtain ⟨hb0, hb1⟩ := hb
  have hsec := Int64.toInt_sub (m tvp).tv_sec (m uvp).tv_sec
  have hnsec : ((m tvp).tv_nsec - (m uvp).tv_nsec).toInt =
      (m tvp).tv_nsec.toInt - (m uvp).tv_nsec.toInt := by
    rw [Int64.toInt_sub, Int.bmod_eq_of_le (by omega) (by omega)]
  simp only [timespecsub, kept_nsec, Function.update_self, Function.update_idem]
  split_ifs with hc <;> refine ⟨_, ?_, rfl⟩ <;> rw [Int64.lt_iff_toInt_lt, hnsec] at hc
  · -- a second is borrowed
    have hc : (m tvp).tv_nsec.toInt - (m uvp).tv_nsec.toInt < 0 := hc
    have hx' : (m tvp).total - (m uvp).total =
        ((m tvp).tv_sec.toInt - (m uvp).tv_sec.toInt - 1) * 1000000000 +
          ((m tvp).tv_nsec.toInt - (m uvp).tv_nsec.toInt + 1000000000) := by
      unfold Timespec.total
      omega
    rw [hx'] at hx ⊢
    refine Timespec.is_of ?_ ?_ (by omega) (by omega) hx
    · rw [toInt_sub_one, hsec, Int.bmod_sub_bmod]
    · rw [toInt_add_second (by omega), hnsec]
  · have hc : ¬ (m tvp).tv_nsec.toInt - (m uvp).tv_nsec.toInt < 0 := hc
    have hx' : (m tvp).total - (m uvp).total =
        ((m tvp).tv_sec.toInt - (m uvp).tv_sec.toInt) * 1000000000 +
          ((m tvp).tv_nsec.toInt - (m uvp).tv_nsec.toInt) := by
      unfold Timespec.total
      omega
    rw [hx'] at hx ⊢
    exact Timespec.is_of hsec hnsec (by omega) (by omega) hx

/-- Nothing but the result changes. -/
theorem timespecsub_of_ne (m : α → Timespec) (tvp uvp : α) {vvp a : α} (h : a ≠ vvp) :
    timespecsub m tvp uvp vvp a = m a := by
  unfold timespecsub
  simp only
  split_ifs <;> simp only [Function.update_of_ne h]

/-- **Comparing is the order of the totals.** -/
theorem rtapi_timespec_less_iff {ta tb : Timespec} (ha : ta.Normal) (hb : tb.Normal) :
    rtapi_timespec_less ta tb = true ↔ ta.total < tb.total := by
  obtain ⟨ha0, ha1⟩ := ha
  obtain ⟨hb0, hb1⟩ := hb
  unfold rtapi_timespec_less Timespec.total
  by_cases h : ta.tv_sec < tb.tv_sec
  · rw [if_pos h]
    have h := Int64.lt_iff_toInt_lt.mp h
    simp only [true_iff]
    omega
  · rw [if_neg h]
    rw [Int64.lt_iff_toInt_lt] at h
    by_cases h' : tb.tv_sec < ta.tv_sec
    · rw [if_pos h']
      have h' := Int64.lt_iff_toInt_lt.mp h'
      simp only [Bool.false_eq_true, false_iff]
      omega
    · rw [if_neg h', decide_eq_true_eq, Int64.lt_iff_toInt_lt]
      rw [Int64.lt_iff_toInt_lt] at h'
      omega

end Helpers

/-! ### The timing of a task -/

/-- The times of a task's thread: `nextstart` of the task, the locals of `wait`, and those of
`rtapi_clock_nanosleep`. -/
inductive Time where
  | nextstart | now | reading | request
  deriving DecidableEq

/-- What `rtapi_task` holds of its timing, with the times of its thread. -/
structure Timing where
  period : Int64 := 0
  pll_correction : Int64 := 0
  pll_correction_limit : Int64 := 0
  times : Time → Timespec := fun _ => {}

namespace Timing

/-- What `task_start` sets. -/
def task_start (period_nsec : UInt64) (t : Timing) : Timing :=
  { t with
    period := period_nsec.toInt64
    pll_correction_limit := (period_nsec / 100).toInt64
    pll_correction := 0 }

/-- `Posix::wrapper` up to the call of the task's code. -/
def wrapper (now : Timespec) (t : Timing) : Timing :=
  let m := Function.update t.times .now now
  { t with
    times := rtapi_timespec_advance m .nextstart .now (t.period + t.pll_correction).toUInt64 }

def task_pll_set_correction (value : Int64) (t : Timing) : Timing :=
  let value := if value > t.pll_correction_limit then t.pll_correction_limit else value
  let value := if value < -t.pll_correction_limit then -t.pll_correction_limit else value
  { t with pll_correction := value }

/-- `Posix::wait` from the advance on; no sleep is asked for where the deadline is past. -/
def wait (now : Timespec) (t : Timing) : Timing × Option (Except Int Timespec) :=
  let m := rtapi_timespec_advance t.times .nextstart .nextstart
    (t.period + t.pll_correction).toUInt64
  let m := Function.update m .now now
  if rtapi_timespec_less (m .nextstart) (m .now) then ({ t with times := m }, none)
  else
    let r := rtapi_clock_nanosleep .reading .request (0, now) TIMER_ABSTIME .nextstart (some .now) m
    ({ t with times := r.1 }, some r.2)

/-- What the code of a task does to its timing. -/
inductive Event where
  | task_pll_set_correction (value : Int64)
  | wait (now : Timespec)

/-- A task with period `P` that started when the clock read `start`, after the events `es`, the
last one first. -/
def after (P : UInt64) (start : Timespec) (t : Timing) : List Event → Timing
  | [] => (t.task_start P).wrapper start
  | .task_pll_set_correction value :: es => (after P start t es).task_pll_set_correction value
  | .wait now :: es => ((after P start t es).wait now).1

/-! ### The schedule -/

def waits : List Event → Nat
  | [] => 0
  | .task_pll_set_correction _ :: es => waits es
  | .wait _ :: es => waits es + 1

/-- The correction in force: the last one asked for, within the limit. -/
def standing (limit : Int) : List Event → Int
  | [] => 0
  | .task_pll_set_correction value :: _ => max (-limit) (min value.toInt limit)
  | .wait _ :: es => standing limit es

/-- The corrections of the advances, that of the start included. -/
def taken (limit : Int) : List Event → List Int
  | [] => [0]
  | .task_pll_set_correction _ :: es => taken limit es
  | .wait _ :: es => standing limit es :: taken limit es

/-- When the task is due: the start, and each advance by the period and its correction. -/
def due (P : Int) (start : Timespec) (es : List Event) : Int :=
  start.total + ((taken (P / 100) es).map (P + ·)).sum

theorem taken_length (limit : Int) (es : List Event) : (taken limit es).length = waits es + 1 := by
  induction es with
  | nil => rfl
  | cons e es ih =>
      cases e with
      | task_pll_set_correction value => exact ih
      | wait now => simp only [taken, waits, List.length_cons, ih]

theorem abs_standing {limit : Int} (h : 0 ≤ limit) (es : List Event) :
    |standing limit es| ≤ limit := by
  induction es with
  | nil => exact h
  | cons e es ih =>
      cases e with
      | task_pll_set_correction value =>
          refine abs_le.mpr ⟨le_max_left _ _, ?_⟩
          simp only [standing]
          omega
      | wait now => exact ih

theorem abs_taken {limit : Int} (h : 0 ≤ limit) {es : List Event} {c : Int}
    (hc : c ∈ taken limit es) : |c| ≤ limit := by
  induction es with
  | nil =>
      rw [taken, List.mem_singleton] at hc
      rw [hc]
      exact h
  | cons e es ih =>
      cases e with
      | task_pll_set_correction value => exact ih hc
      | wait now =>
          rcases List.mem_cons.mp hc with hc | hc
          · rw [hc]
            exact abs_standing h es
          · exact ih hc

theorem due_wait (P : Int) (start now : Timespec) (es : List Event) :
    due P start (.wait now :: es) = due P start es + (P + standing (P / 100) es) := by
  simp only [due, taken, List.map_cons, List.sum_cons]
  omega

/-- Each wait comes later: the corrections are a hundredth of the period. -/
theorem due_lt_wait {P : Int} (hP : 1 ≤ P) (start now : Timespec) (es : List Event) :
    due P start es < due P start (.wait now :: es) := by
  have h := abs_le.mp (abs_standing (by omega : 0 ≤ P / 100) es)
  rw [due_wait]
  omega

theorem start_lt_due {P : Int} (hP : 1 ≤ P) (start : Timespec) (es : List Event) :
    start.total < due P start es := by
  induction es with
  | nil =>
      simp only [due, taken, List.map_cons, List.map_nil, List.sum_cons, List.sum_nil]
      omega
  | cons e es ih =>
      cases e with
      | task_pll_set_correction value => exact ih
      | wait now => exact ih.trans (due_lt_wait hP start now es)

/-- What the task's timing is, in terms of the events. -/
structure Keeps (P : Int) (start : Timespec) (es : List Event) (t : Timing) : Prop where
  period : t.period.toInt = P
  limit : t.pll_correction_limit.toInt = P / 100
  correction : t.pll_correction.toInt = standing (P / 100) es
  deadline : (t.times .nextstart).Is (due P start es)

/-- The period and its correction, as an `unsigned long`. -/
theorem advance_toNat {P : Int} {t : Timing} (hP : 1 ≤ P) (hfit : P + P / 100 < 2 ^ 63)
    (hp : t.period.toInt = P) {c : Int} (hc : t.pll_correction.toInt = c) (hle : |c| ≤ P / 100) :
    ((t.period + t.pll_correction).toUInt64.toNat : Int) = P + c := by
  obtain ⟨h1, h2⟩ := abs_le.mp hle
  have hsum : (t.period + t.pll_correction).toInt = P + c := by
    rw [Int64.toInt_add, hp, hc, Int.bmod_eq_of_le (by omega) (by omega)]
  rw [Int64.toNat_toUInt64_of_le (Int64.le_iff_toInt_le.mpr (by rw [hsum]; show 0 ≤ _; omega)),
    Int64.toNatClampNeg, hsum]
  omega

/-- The correction is clamped. -/
theorem Keeps.task_pll_set_correction {P : Int} {start : Timespec} {es : List Event} {t : Timing}
    (h : Keeps P start es t) (hP : 1 ≤ P) (hfit : P + P / 100 < 2 ^ 63) (value : Int64) :
    Keeps P start (.task_pll_set_correction value :: es) (t.task_pll_set_correction value) := by
  refine ⟨h.period, h.limit, ?_, h.deadline⟩
  have hneg : (-t.pll_correction_limit).toInt = -(P / 100) := by
    rw [Int64.toInt_neg, h.limit, Int.bmod_eq_of_le (by omega) (by omega)]
  show (Timing.task_pll_set_correction value t).pll_correction.toInt = _
  simp only [Timing.task_pll_set_correction, standing, gt_iff_lt]
  split_ifs <;> simp only [Int64.lt_iff_toInt_lt, h.limit, hneg] at * <;> omega

/-- The relative sleep of `wait`, by whether the deadline is past. -/
theorem wait_of_advance {t : Timing} {d : Timespec} (now : Timespec)
    (hd : rtapi_timespec_advance t.times .nextstart .nextstart
      (t.period + t.pll_correction).toUInt64 = Function.update t.times .nextstart d) :
    ((t.wait now).1 = { t with times := (t.wait now).1.times } ∧
        (t.wait now).1.times .nextstart = d) ∧
      (rtapi_timespec_less d now = true → (t.wait now).2 = none) ∧
      (rtapi_timespec_less d now = false → d.Normal → now.Normal →
        Seconds (d.total - now.total) →
        ∃ r, r.Is (d.total - now.total) ∧ (t.wait now).2 = some (.ok r)) := by
  set m := Function.update (Function.update t.times .nextstart d) .now now with hm
  have hwait : t.wait now = if rtapi_timespec_less d now then ({ t with times := m }, none) else
      ({ t with times := timespecsub m .nextstart .now .request },
        some (.ok (timespecsub m .nextstart .now .request .request))) := by
    unfold Timing.wait
    rw [hd]
    rfl
  rw [hwait]
  by_cases hless : rtapi_timespec_less d now
  · rw [if_pos hless]
    exact ⟨⟨rfl, rfl⟩, fun _ => rfl, fun h => absurd (hless.symm.trans h) (by decide)⟩
  · rw [if_neg hless]
    refine ⟨⟨rfl, timespecsub_of_ne m _ _ (by decide)⟩, fun h => absurd h hless, ?_⟩
    intro _ hdn hn hx
    obtain ⟨r, hr, he⟩ := timespecsub_is m .nextstart .now .request hdn hn hx
    refine ⟨r, hr, ?_⟩
    rw [he, Function.update_self]

/-- The advance of a wait is exact. -/
theorem Keeps.advance {P : Int} {start : Timespec} {es : List Event} {t : Timing}
    (h : Keeps P start es t) (hP : 1 ≤ P) (hfit : P + P / 100 < 2 ^ 63) {now : Timespec}
    (hx : Seconds (due P start (.wait now :: es))) :
    ∃ d, d.Is (due P start (.wait now :: es)) ∧
      rtapi_timespec_advance t.times .nextstart .nextstart
        (t.period + t.pll_correction).toUInt64 = Function.update t.times .nextstart d := by
  have hn := advance_toNat hP hfit h.period h.correction (abs_standing (by omega) es)
  rw [due_wait, ← h.deadline.total, ← hn] at hx ⊢
  exact rtapi_timespec_advance_is t.times .nextstart .nextstart h.deadline.normal hx

theorem Keeps.wait {P : Int} {start : Timespec} {es : List Event} {t : Timing}
    (h : Keeps P start es t) (hP : 1 ≤ P) (hfit : P + P / 100 < 2 ^ 63) {now : Timespec}
    (hx : Seconds (due P start (.wait now :: es))) :
    Keeps P start (.wait now :: es) (t.wait now).1 := by
  obtain ⟨d, hd, he⟩ := h.advance hP hfit hx
  obtain ⟨⟨hkeep, hnext⟩, -⟩ := wait_of_advance now he
  refine ⟨?_, ?_, ?_, by rw [hnext]; exact hd⟩
  · rw [hkeep]
    exact h.period
  · rw [hkeep]
    exact h.limit
  · rw [hkeep]
    exact h.correction

/-- The limit is a hundredth of the period. -/
theorem limit_toInt {P : UInt64} (hP : P.toNat < 2 ^ 63) :
    (P / 100).toInt64.toInt = (P.toNat : Int) / 100 := by
  have hdiv : (P / 100).toNat = P.toNat / 100 := UInt64.toNat_div P 100
  rw [toInt64_toInt (by omega), hdiv]
  rfl

/-- The first deadline is a period after the reading. -/
theorem keeps_nil {P : UInt64} {start : Timespec} (t : Timing) (hP : 1 ≤ P.toNat)
    (hfit : P.toNat + P.toNat / 100 < 2 ^ 63) (hs : start.Normal)
    (hx : Seconds (due P.toNat start [])) :
    Keeps P.toNat start [] (after P start t []) := by
  have hperiod : (t.task_start P).period.toInt = P.toNat := toInt64_toInt (by omega)
  have hn : (((t.task_start P).period + (t.task_start P).pll_correction).toUInt64.toNat : Int) =
      P.toNat + 0 :=
    advance_toNat (by omega) (by omega) hperiod rfl (by rw [abs_zero]; omega)
  have hdue : due P.toNat start [] = start.total + ((P.toNat : Int) + 0) := by
    simp only [due, taken, List.map_cons, List.map_nil, List.sum_cons, List.sum_nil, add_zero]
  rw [hdue, ← hn] at hx
  obtain ⟨d, hd, he⟩ := rtapi_timespec_advance_is (Function.update t.times .now start)
    .nextstart .now hs hx
  refine ⟨hperiod, limit_toInt (by omega), rfl, ?_⟩
  have hnext : (after P start t []).times .nextstart = d := by
    show rtapi_timespec_advance (Function.update t.times .now start) .nextstart .now _ .nextstart = d
    rw [he, Function.update_self]
  rw [hnext, hdue, ← hn]
  exact hd

/-- What fits at the end fits before. -/
theorem seconds_of_le {x y : Int} {start : Timespec} (hs : start.Normal) (h : start.total ≤ x)
    (hle : x ≤ y) (hy : Seconds y) : Seconds x := by
  have hsec := start.tv_sec.le_toInt
  have h0 := hs.nonneg
  unfold Timespec.total at h
  exact ⟨by omega, by have := hy.2; omega⟩

theorem after_keeps {P : UInt64} {start : Timespec} (t : Timing) (hP : 1 ≤ P.toNat)
    (hfit : P.toNat + P.toNat / 100 < 2 ^ 63) (hs : start.Normal) {es : List Event}
    (hx : Seconds (due P.toNat start es)) : Keeps P.toNat start es (after P start t es) := by
  have hP' : 1 ≤ (P.toNat : Int) := by omega
  induction es with
  | nil => exact keeps_nil t hP hfit hs hx
  | cons e es ih =>
      cases e with
      | task_pll_set_correction value =>
          exact (ih hx).task_pll_set_correction hP' (by omega) value
      | wait now =>
          have hes := seconds_of_le hs (start_lt_due hP' start es).le
            (due_lt_wait hP' start now es).le hx
          exact (ih hes).wait hP' (by omega) hx

/-- What the helpers promise on normal times. -/
structure Helpers : Prop where
  advance {α : Type} [DecidableEq α] (m : α → Timespec) (result src : α) (nsec : UInt64) :
    (m src).Normal → Seconds ((m src).total + nsec.toNat) →
      ∃ t, t.Is ((m src).total + nsec.toNat) ∧
        rtapi_timespec_advance m result src nsec = Function.update m result t
  add {α : Type} [DecidableEq α] (m : α → Timespec) (result ta tb : α) :
    (m ta).Normal → (m tb).Normal → Seconds ((m ta).total + (m tb).total) →
      ∃ t, t.Is ((m ta).total + (m tb).total) ∧
        rtapi_timespec_add m result ta tb = Function.update m result t
  sub {α : Type} [DecidableEq α] (m : α → Timespec) (tvp uvp vvp : α) :
    (m tvp).Normal → (m uvp).Normal → Seconds ((m tvp).total - (m uvp).total) →
      ∃ t, t.Is ((m tvp).total - (m uvp).total) ∧
        timespecsub m tvp uvp vvp = Function.update m vvp t
  less (ta tb : Timespec) : ta.Normal → tb.Normal →
    (rtapi_timespec_less ta tb = true ↔ ta.total < tb.total)

/-- What a wait does after the events `es`, when the clock reads `now`. -/
structure Waits (P : UInt64) (start : Timespec) (t : Timing) (es : List Event) (now : Timespec) :
    Prop where
  forward : ((after P start t es).times .nextstart).total <
    ((after P start t (.wait now :: es)).times .nextstart).total
  late : ((after P start t (.wait now :: es)).times .nextstart).total < now.total →
    ((after P start t es).wait now).2 = none
  early : now.total ≤ ((after P start t (.wait now :: es)).times .nextstart).total →
    Seconds (((after P start t (.wait now :: es)).times .nextstart).total - now.total) →
    ∃ r, ((after P start t es).wait now).2 = some (.ok r) ∧ 0 ≤ r.total ∧
      r.Is (((after P start t (.wait now :: es)).times .nextstart).total - now.total)

theorem waits_of {P : UInt64} {start : Timespec} (t : Timing) (hP : 1 ≤ P.toNat)
    (hfit : P.toNat + P.toNat / 100 < 2 ^ 63) (hs : start.Normal) {es : List Event}
    {now : Timespec} (hnow : now.Normal) (hx : Seconds (due P.toNat start (.wait now :: es))) :
    Waits P start t es now := by
  have hP' : 1 ≤ (P.toNat : Int) := by omega
  have hes := seconds_of_le hs (start_lt_due hP' start es).le (due_lt_wait hP' start now es).le hx
  have hk := after_keeps t hP hfit hs hes
  obtain ⟨d, hd, he⟩ := hk.advance hP' (by omega) hx
  obtain ⟨⟨-, hnext⟩, hlate, hearly⟩ := wait_of_advance now he
  have hless := rtapi_timespec_less_iff hd.normal hnow
  have hnext : (after P start t (.wait now :: es)).times .nextstart = d := hnext
  constructor
  case forward =>
    rw [hnext, hd.total, hk.deadline.total]
    exact due_lt_wait hP' start now es
  case late =>
    rw [hnext]
    exact fun h => hlate (hless.mpr h)
  case early =>
    rw [hnext]
    intro hle hsec
    have hnot : rtapi_timespec_less d now = false :=
      Bool.eq_false_iff.mpr fun h => absurd (hless.mp h) (by omega)
    obtain ⟨r, hr, hask⟩ := hearly hnot hd.normal hnow hsec
    exact ⟨r, hask, by rw [hr.total]; omega, hr⟩

/-- **The helpers are exact, and the schedule does not drift**: after `k` waits the deadline is the
start and `k + 1` advances, whatever the clock read and whatever corrections were asked for. -/
theorem schedule_exact {P : UInt64} {start : Timespec} (t : Timing) (hP : 1 ≤ P.toNat)
    (hfit : P.toNat + P.toNat / 100 < 2 ^ 63) (hs : start.Normal) :
    Helpers ∧ ∀ es, Seconds (due P.toNat start es) →
      ((after P start t es).times .nextstart).Is (due P.toNat start es) ∧
      (taken (P.toNat / 100) es).length = waits es + 1 ∧
      (∀ c ∈ taken (P.toNat / 100) es, |c| ≤ P.toNat / 100) ∧
      ∀ now, now.Normal → Seconds (due P.toNat start (.wait now :: es)) →
        Waits P start t es now := by
  have helpers : Helpers :=
    ⟨fun m result src _ => rtapi_timespec_advance_is m result src, rtapi_timespec_add_is,
      timespecsub_is, fun _ _ => rtapi_timespec_less_iff⟩
  refine ⟨helpers, fun es hx => ?_⟩
  have hk := after_keeps t hP hfit hs hx
  exact ⟨hk.deadline, taken_length _ es, fun c => abs_taken (by omega),
    fun now hnow => waits_of t hP hfit hs hnow⟩

/-- A millisecond, from a reading that is about to carry. -/
theorem schedule_exact_millisecond :
    let start : Timespec := ⟨7, 999999999⟩
    let es : List Event := [.wait ⟨8, 5⟩, .task_pll_set_correction (-20000)]
    due 1000000 start es = 8001989999 ∧
      ((after 1000000 start {} es).times .nextstart).Is (due 1000000 start es) :=
  ⟨by decide, ((schedule_exact {} (by decide) (by decide) ⟨by decide, by decide⟩).2
    [.wait ⟨8, 5⟩, .task_pll_set_correction (-20000)] (by decide)).1⟩

end Timing

end RTS.Uspace

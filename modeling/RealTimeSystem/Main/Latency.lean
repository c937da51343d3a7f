import Mathlib.Order.Bounds.Basic
import Mathlib.Order.BoundedOrder.Basic
import Mathlib.Order.Fin.Basic
import Mathlib.Order.MinMax
import Mathlib.Tactic.SplitIfs
import Mathlib.Tactic.Tauto

/-!
# Main — the latency of the control loop

Each turn of the loop of `main` takes the time since the turn before and updates the shortest and
the longest time so far.  Times are elements of a linear order whose least element is the 0 and
whose greatest is the `DBL_MAX` of the source.  The counters, the warnings and the wait of a turn do
not touch the two extremes and are left out.

The two updates are one `if … else if`: a time that is a new minimum is not compared with the
maximum.  From the second time on this does no harm, for a new minimum is below the first time.

**`extremes_right_iff`**: the extremes are right if and only if some later time is as long as the
first, or the first is 0 or `DBL_MAX`.
-/

namespace RTS.Main

variable {T : Type} [LinearOrder T]

/-- `minTime` and `maxTime`. -/
structure Extremes (T : Type) where
  minTime : T
  maxTime : T
  deriving DecidableEq

/-- A turn of the loop that took `deltaTime`. -/
def Extremes.measure (s : Extremes T) (deltaTime : T) : Extremes T :=
  if deltaTime < s.minTime then { s with minTime := deltaTime }
  else if deltaTime > s.maxTime then { s with maxTime := deltaTime }
  else s

/-- The loop, from the values it starts with. -/
def control_loop [BoundedOrder T] (times : List T) : Extremes T :=
  times.foldl Extremes.measure ⟨⊤, ⊥⟩

/-- The two values are the minimum and the maximum of the times. -/
def Extremes.Right (s : Extremes T) (times : List T) : Prop :=
  IsLeast { t | t ∈ times } s.minTime ∧ IsGreatest { t | t ∈ times } s.maxTime

namespace Extremes

variable {s : Extremes T} {times : List T} {t c : T}

/-! ### One turn -/

theorem measure_minTime (s : Extremes T) (t : T) : (s.measure t).minTime = min s.minTime t := by
  unfold measure
  split_ifs with h₁ h₂
  · exact (min_eq_right h₁.le).symm
  · exact (min_eq_left (not_lt.mp h₁)).symm
  · exact (min_eq_left (not_lt.mp h₁)).symm

/-- A new minimum leaves the maximum alone. -/
theorem measure_maxTime (s : Extremes T) (t : T) :
    (s.measure t).maxTime = if t < s.minTime then s.maxTime else max s.maxTime t := by
  unfold measure
  split_ifs with h₁ h₂
  · rfl
  · exact (max_eq_right h₂.le).symm
  · exact (max_eq_left (not_lt.mp h₂)).symm

/-! ### The loop -/

theorem foldl_minTime : (times.foldl measure s).minTime = times.foldl min s.minTime := by
  induction times generalizing s with
  | nil => rfl
  | cons t times ih => rw [List.foldl_cons, ih, measure_minTime, List.foldl_cons]

/-- The minimum is one of the times or the value at the start, and none of them is less. -/
theorem foldl_min_spec (m : T) (times : List T) :
    (times.foldl min m = m ∨ times.foldl min m ∈ times) ∧ times.foldl min m ≤ m ∧
      ∀ t ∈ times, times.foldl min m ≤ t := by
  induction times generalizing m with
  | nil => exact ⟨.inl rfl, le_rfl, fun _ ht => absurd ht List.not_mem_nil⟩
  | cons t times ih =>
      obtain ⟨hmem, hle, hall⟩ := ih (min m t)
      rw [List.foldl_cons]
      refine ⟨?_, hle.trans (min_le_left m t), fun u hu => ?_⟩
      · rcases hmem with e | hmem
        · rw [e]
          exact (min_choice m t).imp_right fun e => List.mem_cons.mpr (.inl e)
        · exact .inr (List.mem_cons_of_mem _ hmem)
      · rcases List.mem_cons.mp hu with rfl | hu
        · exact hle.trans (min_le_right m u)
        · exact hall u hu

/-- The maximum is the value at the start or one of the times. -/
theorem foldl_maxTime_mem (s : Extremes T) (times : List T) :
    (times.foldl measure s).maxTime = s.maxTime ∨ (times.foldl measure s).maxTime ∈ times := by
  induction times generalizing s with
  | nil => exact .inl rfl
  | cons t times ih =>
      rw [List.foldl_cons]
      rcases ih (s.measure t) with e | hmem
      · rw [e, measure_maxTime]
        split_ifs
        · exact .inl rfl
        · exact (max_choice s.maxTime t).imp_right fun e => List.mem_cons.mpr (.inl e)
      · exact .inr (List.mem_cons_of_mem _ hmem)

/-- From `minTime` on the maximum is what it should be: what is passed over is below. -/
theorem le_foldl_maxTime (hc : s.minTime ≤ c) :
    c ≤ (times.foldl measure s).maxTime ↔ c ≤ s.maxTime ∨ ∃ t ∈ times, c ≤ t := by
  induction times generalizing s with
  | nil => simp
  | cons t times ih =>
      have hmin : (s.measure t).minTime ≤ c := by
        rw [measure_minTime]
        exact (min_le_left _ _).trans hc
      have hstep : c ≤ (s.measure t).maxTime ↔ c ≤ s.maxTime ∨ c ≤ t := by
        rw [measure_maxTime]
        split_ifs with h
        · have hlt : ¬ c ≤ t := not_le.mpr (h.trans_le hc)
          tauto
        · exact le_max_iff
      rw [List.foldl_cons, ih hmin, hstep]
      simp only [List.mem_cons, exists_eq_or_imp, or_assoc]

end Extremes

/-! ### When the extremes are right -/

section
variable [BoundedOrder T] {t : T} {ts : List T}

/-- The minimum is always right. -/
theorem control_loop_minTime (t : T) (ts : List T) :
    IsLeast { u | u ∈ t :: ts } (control_loop (t :: ts)).minTime := by
  obtain ⟨hmem, -, hall⟩ := Extremes.foldl_min_spec (⊤ : T) (t :: ts)
  unfold control_loop
  rw [Extremes.foldl_minTime]
  refine ⟨?_, hall⟩
  rcases hmem with e | hmem
  · -- all times are `DBL_MAX` then
    have ht := hall t List.mem_cons_self
    rw [e] at ht ⊢
    exact top_le_iff.mp ht ▸ List.mem_cons_self
  · exact hmem

/-- The maximum is right once it is above the first time, or that one counted. -/
theorem control_loop_maxTime (t : T) (ts : List T) :
    IsGreatest { u | u ∈ t :: ts } (control_loop (t :: ts)).maxTime ↔
      (∃ u ∈ ts, t ≤ u) ∨ t = ⊥ ∨ t = ⊤ := by
  by_cases ht : t = ⊤
  · -- `DBL_MAX` is no new minimum
    subst ht
    have hle : ⊤ ≤ (control_loop ((⊤ : T) :: ts)).maxTime :=
      (Extremes.le_foldl_maxTime (s := ⟨⊤, ⊥⟩) le_rfl).mpr
        (.inr ⟨⊤, List.mem_cons_self, le_rfl⟩)
    refine ⟨fun _ => .inr (.inr rfl), fun _ => ⟨?_, fun _ _ => le_top.trans hle⟩⟩
    exact List.mem_cons.mpr (.inl (top_le_iff.mp hle))
  · have hfirst : Extremes.measure ⟨⊤, ⊥⟩ t = ⟨t, ⊥⟩ := if_pos (lt_top_iff_ne_top.mpr ht)
    have hloop : control_loop (t :: ts) = ts.foldl Extremes.measure ⟨t, ⊥⟩ := by
      rw [control_loop, List.foldl_cons, hfirst]
    have hcount : ∀ {c : T}, t ≤ c → (c ≤ (control_loop (t :: ts)).maxTime ↔
        c = ⊥ ∨ ∃ u ∈ ts, c ≤ u) := fun {c} hc => by
      rw [hloop, Extremes.le_foldl_maxTime (s := ⟨t, ⊥⟩) hc, le_bot_iff]
    constructor
    · intro h
      rcases (hcount le_rfl).mp (h.2 List.mem_cons_self) with e | hu
      · exact .inr (.inl e)
      · exact .inl hu
    · intro h
      have hle : t ≤ (control_loop (t :: ts)).maxTime :=
        (hcount le_rfl).mpr (h.symm.imp_left fun e => e.resolve_right ht)
      refine ⟨?_, fun u hu => ?_⟩
      · rcases Extremes.foldl_maxTime_mem ⟨t, ⊥⟩ ts with e | hmem
        · rw [← hloop] at e
          rw [e] at hle
          exact List.mem_cons.mpr (.inl (e.trans (le_bot_iff.mp hle).symm))
        · exact List.mem_cons_of_mem _ (hloop ▸ hmem)
      · rcases List.mem_cons.mp hu with rfl | hu
        · exact hle
        · rcases le_total t u with htu | hut
          · exact (hcount htu).mpr (.inr ⟨u, hu, le_rfl⟩)
          · exact hut.trans hle

/-- **When the extremes are right.**  Some later time is as long as the first, or the first is one
of the two ends of the order. -/
theorem extremes_right_iff (t : T) (ts : List T) :
    (control_loop (t :: ts)).Right (t :: ts) ↔ (∃ u ∈ ts, t ≤ u) ∨ t = ⊥ ∨ t = ⊤ :=
  ⟨fun h => (control_loop_maxTime t ts).mp h.2,
    fun h => ⟨control_loop_minTime t ts, (control_loop_maxTime t ts).mpr h⟩⟩

/-- A first turn that takes the longest is not seen: with the times 3 and 1 the maximum is 0. -/
theorem longest_first_wrong :
    ¬ ∀ (t : Fin 5) (ts : List (Fin 5)), (control_loop (t :: ts)).Right (t :: ts) := fun h => by
  have hmax : (control_loop [(3 : Fin 5), 1]).maxTime = 0 := by decide
  have hle := (h 3 [1]).2.2 (show (3 : Fin 5) ∈ [(3 : Fin 5), 1] by decide)
  rw [hmax] at hle
  exact absurd hle (by decide)

end

end RTS.Main

import Mathlib.Algebra.Order.Group.Int
import Mathlib.Tactic.SplitIfs
import RealTimeSystem.Support.Countdown

/-!
# Uspace — priorities

The priorities of the scheduling policy, and the steps from one to the next.  The highest may be
above the lowest as a number, or below it, or equal.  The two directions are one: with the ends
exchanged the steps to the higher priority are those to the lower (`prio_next_higher_eq`).

**`priorities_covered`**: from the highest priority `prio_next_lower` goes through all priorities
once, down to the lowest; `prio_next_higher` goes the way back.
-/

namespace RTS.Uspace

/-- A value that an `int` can hold. -/
def FitsInt (x : ℤ) : Prop := Int32.minValue.toInt ≤ x ∧ x ≤ Int32.maxValue.toInt

instance (x : ℤ) : Decidable (FitsInt x) := inferInstanceAs (Decidable (_ ∧ _))

/-- What `sched_get_priority_max` and `sched_get_priority_min` give for the policy. -/
structure Policy where
  priority_max : Int32
  priority_min : Int32

namespace Policy

variable (P : Policy)

def prio_highest : Int32 := P.priority_max

def prio_lowest : Int32 := P.priority_min

def prio_higher_delta : Int32 := if P.prio_highest > P.prio_lowest then 1 else -1

def prio_bound (prio : Int32) : Int32 :=
  if P.prio_highest > P.prio_lowest then
    if prio ≥ P.prio_highest then P.prio_highest
    else if prio < P.prio_lowest then P.prio_lowest
    else prio
  else
    if prio ≤ P.prio_highest then P.prio_highest
    else if prio > P.prio_lowest then P.prio_lowest
    else prio

def prio_next_higher (prio : Int32) : Int32 :=
  let prio := P.prio_bound prio
  if prio ≠ P.prio_highest then prio + P.prio_higher_delta else prio

def prio_next_lower (prio : Int32) : Int32 :=
  let prio := P.prio_bound prio
  if prio ≠ P.prio_lowest then prio - P.prio_higher_delta else prio

/-- Between the two ends, whichever is the greater number. -/
def Within (prio : Int32) : Prop :=
  P.prio_lowest ≤ prio ∧ prio ≤ P.prio_highest ∨ P.prio_highest ≤ prio ∧ prio ≤ P.prio_lowest

/-- `a` is the higher priority. -/
def Above (a b : Int32) : Prop :=
  if P.prio_highest > P.prio_lowest then b < a else a < b

/-- The steps between the two ends. -/
def span : ℕ := (P.prio_highest.toInt - P.prio_lowest.toInt).natAbs

/-- From `first` on, `next` goes through all priorities in the order of `r`, each once, and then
stays at `last`. -/
structure Sweeps (next : Int32 → Int32) (first last : Int32) (r : Int32 → Int32 → Prop) :
    Prop where
  within : ∀ k, P.Within (next^[k] first)
  once : ∀ prio, P.Within prio → ∃! k, k ≤ P.span ∧ next^[k] first = prio
  ordered : ∀ j k, j < k → k ≤ P.span → r (next^[j] first) (next^[k] first)
  stays : ∀ k, P.span ≤ k → next^[k] first = last

/-! ### As integers -/

/-- The integer next to `a` on the way to `e`. -/
def toward (a e : ℤ) : ℤ := if e < a then a - 1 else if a < e then a + 1 else a

variable {P} {prio q : Int32}

theorem within_iff : P.Within prio ↔
    min P.prio_lowest.toInt P.prio_highest.toInt ≤ prio.toInt ∧
      prio.toInt ≤ max P.prio_lowest.toInt P.prio_highest.toInt := by
  unfold Within
  simp only [Int32.le_iff_toInt_le]
  omega

/-- Whichever way the ends lie, a priority is moved to the nearest one in between. -/
theorem prio_bound_toInt (P : Policy) (prio : Int32) :
    (P.prio_bound prio).toInt =
      max (min P.prio_lowest.toInt P.prio_highest.toInt)
        (min prio.toInt (max P.prio_lowest.toInt P.prio_highest.toInt)) := by
  unfold prio_bound
  simp only [gt_iff_lt, ge_iff_le, Int32.lt_iff_toInt_lt, Int32.le_iff_toInt_le]
  split_ifs <;> omega

theorem prio_bound_within (P : Policy) (prio : Int32) : P.Within (P.prio_bound prio) := by
  rw [within_iff, prio_bound_toInt]
  omega

theorem prio_bound_of_within (h : P.Within prio) : P.prio_bound prio = prio := by
  rw [within_iff] at h
  rw [← Int32.toInt_inj, prio_bound_toInt]
  omega

theorem within_highest (P : Policy) : P.Within P.prio_highest := by
  rw [within_iff]
  omega

theorem within_lowest (P : Policy) : P.Within P.prio_lowest := by
  rw [within_iff]
  omega

/-! ### One step -/

theorem fitsInt_iff {x : ℤ} : FitsInt x ↔ -2 ^ 31 ≤ x ∧ x < 2 ^ 31 := by
  unfold FitsInt
  rw [Int32.toInt_minValue, Int32.toInt_maxValue]
  omega

theorem prio_higher_delta_toInt (P : Policy) :
    P.prio_higher_delta.toInt = if P.prio_lowest.toInt < P.prio_highest.toInt then 1 else -1 := by
  unfold prio_higher_delta
  simp only [gt_iff_lt, Int32.lt_iff_toInt_lt]
  split_ifs
  · exact Int32.toInt_one
  · rfl

/-- The way to an end stays between the ends. -/
theorem toward_within {e : Int32} (hq : P.Within q) (he : P.Within e) :
    min P.prio_lowest.toInt P.prio_highest.toInt ≤ toward q.toInt e.toInt ∧
      toward q.toInt e.toInt ≤ max P.prio_lowest.toInt P.prio_highest.toInt := by
  rw [within_iff] at hq he
  unfold toward
  split_ifs <;> omega

theorem toward_fitsInt {e : Int32} (hq : P.Within q) (he : P.Within e) :
    FitsInt (toward q.toInt e.toInt) := by
  have hway := toward_within hq he
  have hmin := P.prio_lowest.le_toInt
  have hmax := P.prio_lowest.toInt_lt
  have hmin' := P.prio_highest.le_toInt
  have hmax' := P.prio_highest.toInt_lt
  rw [fitsInt_iff]
  omega

theorem add_delta (hq : P.Within q) (hne : q ≠ P.prio_highest) :
    q.toInt + P.prio_higher_delta.toInt = toward q.toInt P.prio_highest.toInt := by
  rw [within_iff] at hq
  rw [ne_eq, ← Int32.toInt_inj] at hne
  rw [prio_higher_delta_toInt]
  unfold toward
  split_ifs <;> omega

theorem sub_delta (hq : P.Within q) (hne : q ≠ P.prio_lowest) :
    q.toInt - P.prio_higher_delta.toInt = toward q.toInt P.prio_lowest.toInt := by
  rw [within_iff] at hq
  rw [ne_eq, ← Int32.toInt_inj] at hne
  rw [prio_higher_delta_toInt]
  unfold toward
  split_ifs <;> omega

theorem toward_self (a : ℤ) : toward a a = a := by
  unfold toward
  rw [if_neg (lt_irrefl a), if_neg (lt_irrefl a)]

theorem prio_next_higher_toInt (P : Policy) (prio : Int32) :
    (P.prio_next_higher prio).toInt =
      toward (P.prio_bound prio).toInt P.prio_highest.toInt := by
  have hw := P.prio_bound_within prio
  unfold prio_next_higher
  by_cases hne : P.prio_bound prio = P.prio_highest
  · rw [if_neg (not_not.mpr hne), hne, toward_self]
  · have hin := fitsInt_iff.mp (toward_fitsInt hw P.within_highest)
    rw [if_pos hne, Int32.toInt_add, add_delta hw hne]
    exact Int.bmod_eq_of_le_mul_two (by omega) (by omega)

theorem prio_next_lower_toInt (P : Policy) (prio : Int32) :
    (P.prio_next_lower prio).toInt =
      toward (P.prio_bound prio).toInt P.prio_lowest.toInt := by
  have hw := P.prio_bound_within prio
  unfold prio_next_lower
  by_cases hne : P.prio_bound prio = P.prio_lowest
  · rw [if_neg (not_not.mpr hne), hne, toward_self]
  · have hin := fitsInt_iff.mp (toward_fitsInt hw P.within_lowest)
    rw [if_pos hne, Int32.toInt_sub, sub_delta hw hne]
    exact Int.bmod_eq_of_le_mul_two (by omega) (by omega)

/-! ### All steps -/

/-- The way to an end is a countdown of the distance to it. -/
theorem countdown {next : Int32 → Int32} {e : Int32} (he : e = P.prio_lowest ∨ e = P.prio_highest)
    (hnext : ∀ prio, (next prio).toInt = toward (P.prio_bound prio).toInt e.toInt) :
    Support.Countdown { q | P.Within q } next fun q => (q.toInt - e.toInt).natAbs where
  maps q hq := by
    have hwe : P.Within e := he.elim (fun h => h ▸ P.within_lowest) fun h => h ▸ P.within_highest
    show P.Within (next q)
    rw [within_iff, hnext, prio_bound_of_within hq]
    exact toward_within hq hwe
  down q hq := by
    show ((next q).toInt - e.toInt).natAbs = _
    rw [hnext, prio_bound_of_within hq]
    unfold toward
    split_ifs <;> omega
  inj q hq q' hq' h := by
    have hq := within_iff.mp hq
    have hq' := within_iff.mp hq'
    rw [← Int32.toInt_inj]
    -- from an end all priorities lie to one side
    rcases he with rfl | rfl <;> simp only at h <;> omega

/-- Between the ends no distance is greater than the span. -/
theorem distance_le_span {e : Int32} (he : e = P.prio_lowest ∨ e = P.prio_highest)
    (hq : P.Within q) : (q.toInt - e.toInt).natAbs ≤ P.span := by
  rw [within_iff] at hq
  unfold span
  rcases he with rfl | rfl <;> omega

/-- From one end to the other a countdown goes through all priorities. -/
theorem sweeps {next : Int32 → Int32} {first last : Int32} {r : Int32 → Int32 → Prop}
    (hf : P.Within first) (he : last = P.prio_lowest ∨ last = P.prio_highest)
    (hspan : (first.toInt - last.toInt).natAbs = P.span)
    (hnext : ∀ prio, (next prio).toInt = toward (P.prio_bound prio).toInt last.toInt)
    (hr : ∀ q q', P.Within q → P.Within q' →
      (q'.toInt - last.toInt).natAbs < (q.toInt - last.toInt).natAbs → r q q') :
    P.Sweeps next first last r := by
  have h := countdown he hnext
  have hl : P.Within last :=
    he.elim (fun h => h ▸ P.within_lowest) fun h => h ▸ P.within_highest
  constructor
  · intro k
    exact h.iterate_mem hf k
  · intro prio hp
    rw [← hspan]
    exact h.existsUnique_iterate hf hp (hspan ▸ distance_le_span he hp)
  · intro j k hjk hk
    have hj := h.rank_iterate hf j
    have hk' := h.rank_iterate hf k
    refine hr _ _ (h.iterate_mem hf j) (h.iterate_mem hf k) ?_
    omega
  · intro k hk
    refine h.iterate_stays hf hl ?_ (hspan ▸ hk)
    rw [sub_self, Int.natAbs_zero]

theorem prio_next_lower_sweeps (P : Policy) :
    P.Sweeps P.prio_next_lower P.prio_highest P.prio_lowest P.Above := by
  refine sweeps P.within_highest (.inl rfl) rfl P.prio_next_lower_toInt ?_
  intro q q' hq hq' hlt
  rw [within_iff] at hq hq'
  unfold Above
  simp only [gt_iff_lt, Int32.lt_iff_toInt_lt]
  split_ifs <;> omega

theorem prio_next_higher_sweeps (P : Policy) :
    P.Sweeps P.prio_next_higher P.prio_lowest P.prio_highest fun q q' => P.Above q' q := by
  have hspan : (P.prio_lowest.toInt - P.prio_highest.toInt).natAbs = P.span := by
    unfold span
    omega
  refine sweeps P.within_lowest (.inr rfl) hspan P.prio_next_higher_toInt ?_
  intro q q' hq hq' hlt
  rw [within_iff] at hq hq'
  unfold Above
  simp only [gt_iff_lt, Int32.lt_iff_toInt_lt]
  split_ifs <;> omega

/-! ### There and back -/

theorem next_higher_next_lower (h : P.prio_bound prio ≠ P.prio_lowest) :
    P.prio_next_higher (P.prio_next_lower prio) = P.prio_bound prio := by
  have hw := P.prio_bound_within prio
  have hin := toward_within hw P.within_lowest
  rw [within_iff] at hw
  rw [ne_eq, ← Int32.toInt_inj] at h
  rw [← Int32.toInt_inj, prio_next_higher_toInt, prio_bound_toInt P (P.prio_next_lower prio),
    prio_next_lower_toInt]
  unfold toward at *
  split_ifs <;> omega

theorem next_lower_next_higher (h : P.prio_bound prio ≠ P.prio_highest) :
    P.prio_next_lower (P.prio_next_higher prio) = P.prio_bound prio := by
  have hw := P.prio_bound_within prio
  have hin := toward_within hw P.within_highest
  rw [within_iff] at hw
  rw [ne_eq, ← Int32.toInt_inj] at h
  rw [← Int32.toInt_inj, prio_next_lower_toInt, prio_bound_toInt P (P.prio_next_higher prio),
    prio_next_higher_toInt]
  unfold toward at *
  split_ifs <;> omega

end Policy

/-- **The priorities are covered.**  Both sweeps, the way back of each step, and the sums. -/
theorem priorities_covered (P : Policy) :
    (∀ prio, P.Within (P.prio_bound prio) ∧ (P.Within prio → P.prio_bound prio = prio)) ∧
    P.Sweeps P.prio_next_lower P.prio_highest P.prio_lowest P.Above ∧
    P.Sweeps P.prio_next_higher P.prio_lowest P.prio_highest (fun a b => P.Above b a) ∧
    (∀ prio, P.prio_bound prio ≠ P.prio_lowest →
      P.prio_next_higher (P.prio_next_lower prio) = P.prio_bound prio) ∧
    (∀ prio, P.prio_bound prio ≠ P.prio_highest →
      P.prio_next_lower (P.prio_next_higher prio) = P.prio_bound prio) ∧
    (∀ prio, P.prio_bound prio ≠ P.prio_highest →
      FitsInt ((P.prio_bound prio).toInt + P.prio_higher_delta.toInt)) ∧
    (∀ prio, P.prio_bound prio ≠ P.prio_lowest →
      FitsInt ((P.prio_bound prio).toInt - P.prio_higher_delta.toInt)) := by
  refine ⟨fun prio => ⟨P.prio_bound_within prio, Policy.prio_bound_of_within⟩,
    P.prio_next_lower_sweeps, P.prio_next_higher_sweeps,
    fun _ => Policy.next_higher_next_lower, fun _ => Policy.next_lower_next_higher, ?_, ?_⟩
  · intro prio hne
    have hw := P.prio_bound_within prio
    rw [Policy.add_delta hw hne]
    exact Policy.toward_fitsInt hw P.within_highest
  · intro prio hne
    have hw := P.prio_bound_within prio
    rw [Policy.sub_delta hw hne]
    exact Policy.toward_fitsInt hw P.within_lowest

end RTS.Uspace

import Mathlib.Logic.Function.Basic

/-!
# Support — what a lock guards

Threads `i` at places `pc i`, some of them inside a lock.  `Guards` says that one thread is inside
while the lock is taken and none while it is free, and that the guarded data meet `Free` while it is
free and `At p` while a thread is inside at `p`.  A rule for each kind of step: in, within, out, outside.
-/

namespace RTS.Support

variable {I P : Type}

structure Guards (lock : Bool) (pc : I → P) (inside : P → Prop) (Free : Prop) (At : P → Prop) :
    Prop where
  free : lock = false → Free
  empty : lock = false → ∀ i, ¬ inside (pc i)
  held : lock = true → ∃ i, inside (pc i)
  one : ∀ i j, inside (pc i) → inside (pc j) → i = j
  at_place : ∀ i, inside (pc i) → At (pc i)

namespace Guards

variable {lock : Bool} {pc : I → P} {inside : P → Prop} {Free Free' : Prop}
  {At At' : P → Prop} {i : I} {p : P}

theorem others (h : Guards lock pc inside Free At) (hi : inside (pc i)) :
    ∀ j, j ≠ i → ¬ inside (pc j) :=
  fun j hj hin => hj (h.one j i hin hi)

theorem taken (h : Guards lock pc inside Free At) (hi : inside (pc i)) : lock = true :=
  eq_true_of_ne_false fun hl => h.empty hl i hi

variable [DecidableEq I]

/-- A thread that may be the only one inside. -/
theorem alone (hothers : ∀ j, j ≠ i → ¬ inside (pc j)) (hat : inside p → At p)
    (hfree : lock = false → Free ∧ ¬ inside p) (hheld : lock = true → inside p) :
    Guards lock (Function.update pc i p) inside Free At where
  free h := (hfree h).1
  empty h j := by
    by_cases hj : j = i
    · rw [hj, Function.update_self]
      exact (hfree h).2
    · rw [Function.update_of_ne hj]
      exact hothers j hj
  held h := ⟨i, by rw [Function.update_self]; exact hheld h⟩
  one j k hj hk := by
    by_cases hji : j = i <;> by_cases hki : k = i
    · rw [hji, hki]
    · exact absurd (Function.update_of_ne hki p pc ▸ hk) (hothers k hki)
    · exact absurd (Function.update_of_ne hji p pc ▸ hj) (hothers j hji)
    · exact absurd (Function.update_of_ne hji p pc ▸ hj) (hothers j hji)
  at_place j hj := by
    by_cases hji : j = i
    · rw [hji, Function.update_self] at hj ⊢
      exact hat hj
    · exact absurd (Function.update_of_ne hji p pc ▸ hj) (hothers j hji)

theorem acquire (h : Guards false pc inside Free At) (hp : inside p) (hat : At' p) :
    Guards true (Function.update pc i p) inside Free' At' :=
  alone (fun j _ => h.empty rfl j) (fun _ => hat) nofun fun _ => hp

theorem within (h : Guards lock pc inside Free At) (hi : inside (pc i)) (hp : inside p)
    (hat : At' p) : Guards lock (Function.update pc i p) inside Free' At' := by
  have hfree : ¬ lock = false := by rw [h.taken hi]; decide
  exact alone (h.others hi) (fun _ => hat) (fun hl => absurd hl hfree) fun _ => hp

theorem release (h : Guards lock pc inside Free At) (hi : inside (pc i)) (hp : ¬ inside p)
    (hfree : Free') : Guards false (Function.update pc i p) inside Free' At' :=
  alone (h.others hi) (fun hin => absurd hin hp) (fun _ => ⟨hfree, hp⟩) nofun

theorem outside (h : Guards lock pc inside Free At) (hi : ¬ inside (pc i)) (hp : ¬ inside p) :
    Guards lock (Function.update pc i p) inside Free At := by
  have hback : ∀ j, inside (Function.update pc i p j) →
      Function.update pc i p j = pc j ∧ inside (pc j) := by
    intro j hj
    by_cases hji : j = i
    · rw [hji, Function.update_self] at hj
      exact absurd hj hp
    · rw [Function.update_of_ne hji] at hj ⊢
      exact ⟨rfl, hj⟩
  refine ⟨h.free, fun hl j hj => h.empty hl j (hback j hj).2, fun hl => ?_, fun j k hj hk => ?_,
    fun j hj => ?_⟩
  · obtain ⟨j, hj⟩ := h.held hl
    refine ⟨j, ?_⟩
    rwa [Function.update_of_ne fun e : j = i => hi (e ▸ hj)]
  · exact h.one j k (hback j hj).2 (hback k hk).2
  · rw [(hback j hj).1]
    exact h.at_place j (hback j hj).2

end Guards

end RTS.Support

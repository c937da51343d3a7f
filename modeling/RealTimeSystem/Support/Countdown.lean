import Mathlib.Data.Set.Operations
import Mathlib.Logic.Function.Iterate

/-!
# Support — counting down

A function that takes each element of a set one rank down, where the rank tells the elements apart.
From any element it goes through all elements of no greater rank, each once, and stays at the one of
rank 0.
-/

namespace RTS.Support

variable {α : Type*} {S : Set α} {f : α → α} {rank : α → ℕ} {x y : α} {k : ℕ}

structure Countdown (S : Set α) (f : α → α) (rank : α → ℕ) : Prop where
  maps : ∀ x ∈ S, f x ∈ S
  down : ∀ x ∈ S, rank (f x) = rank x - 1
  inj : Set.InjOn rank S

namespace Countdown

theorem iterate_mem (h : Countdown S f rank) (hx : x ∈ S) (k : ℕ) : f^[k] x ∈ S := by
  induction k generalizing x with
  | zero => exact hx
  | succ k ih =>
      rw [Function.iterate_succ_apply]
      exact ih (h.maps x hx)

theorem rank_iterate (h : Countdown S f rank) (hx : x ∈ S) (k : ℕ) :
    rank (f^[k] x) = rank x - k := by
  induction k generalizing x with
  | zero => rfl
  | succ k ih =>
      rw [Function.iterate_succ_apply, ih (h.maps x hx), h.down x hx]
      omega

theorem iterate_eq_iff (h : Countdown S f rank) (hx : x ∈ S) (hy : y ∈ S) :
    f^[k] x = y ↔ rank y = rank x - k := by
  rw [← h.rank_iterate hx k]
  exact ⟨fun e => e ▸ rfl, fun e => (h.inj hy (h.iterate_mem hx k) e).symm⟩

/-- Every element that is not above `x` is met once on the way down from it. -/
theorem existsUnique_iterate (h : Countdown S f rank) (hx : x ∈ S) (hy : y ∈ S)
    (hle : rank y ≤ rank x) : ∃! k, k ≤ rank x ∧ f^[k] x = y := by
  refine ⟨rank x - rank y, ⟨Nat.sub_le _ _, ?_⟩, ?_⟩
  · exact (h.iterate_eq_iff hx hy).mpr (by omega)
  · rintro k ⟨hk, e⟩
    have hrank := (h.iterate_eq_iff hx hy).mp e
    omega

/-- At rank 0 it stays. -/
theorem iterate_stays (h : Countdown S f rank) (hx : x ∈ S) (hy : y ∈ S) (h0 : rank y = 0)
    (hk : rank x ≤ k) : f^[k] x = y :=
  (h.iterate_eq_iff hx hy).mpr (by omega)

end Countdown

end RTS.Support

import Mathlib.Data.List.Basic
import Mathlib.Data.List.Perm.Basic
import Mathlib.Data.List.TakeWhile
import Mathlib.Tactic.Common

/-!
# Support — insertion in a strictly sorted list

`enter lt a l` puts `a` behind the elements that are smaller than it.  On a strictly sorted list
that has nothing incomparable to `a` the result is strictly sorted (`pairwise_enter`).
-/

namespace RTS.Support

variable {α : Type} (lt : α → α → Prop) [DecidableRel lt]

/-- `a` behind the smaller elements at the front of `l`. -/
def enter (a : α) (l : List α) : List α :=
  l.takeWhile (fun b => lt b a) ++ a :: l.dropWhile (fun b => lt b a)

variable {lt} {a b : α} {l : List α}

theorem enter_perm : (enter lt a l).Perm (a :: l) := by
  have : l.takeWhile (fun b => lt b a) ++ l.dropWhile (fun b => lt b a) = l :=
    List.takeWhile_append_dropWhile
  unfold enter
  exact List.perm_middle.trans (by rw [this])

theorem mem_enter : b ∈ enter lt a l ↔ b = a ∨ b ∈ l := by
  rw [enter_perm.mem_iff, List.mem_cons]

theorem pairwise_enter (trans : ∀ x y z, lt x y → lt y z → lt x z) (h : l.Pairwise lt)
    (ha : ∀ b ∈ l, lt b a ∨ lt a b) : (enter lt a l).Pairwise lt := by
  induction l with
  | nil => simp [enter]
  | cons b l ih =>
      obtain ⟨hb, hl⟩ := List.pairwise_cons.mp h
      by_cases hba : lt b a
      · have he : enter lt a (b :: l) = b :: enter lt a l := by simp [enter, hba]
        rw [he]
        refine List.pairwise_cons.mpr ⟨fun c hc => ?_, ih hl fun c hc => ha c (by simp [hc])⟩
        rcases mem_enter.mp hc with rfl | hc
        · exact hba
        · exact hb c hc
      · have hab : lt a b := (ha b (by simp)).resolve_left hba
        have he : enter lt a (b :: l) = a :: b :: l := by simp [enter, hba]
        rw [he]
        refine List.pairwise_cons.mpr ⟨fun c hc => ?_, h⟩
        rcases List.mem_cons.mp hc with rfl | hc
        · exact hab
        · exact trans _ _ _ hab (hb c hc)

/-- Insertion commutes with a map that keeps the order. -/
theorem enter_map {β : Type} {lt' : β → β → Prop} [DecidableRel lt'] {f : α → β}
    (hf : ∀ b ∈ l, lt' (f b) (f a) ↔ lt b a) : (enter lt a l).map f = enter lt' (f a) (l.map f) := by
  have hd : ∀ l' ⊆ l, l'.takeWhile (fun b => decide (lt' (f b) (f a))) =
      l'.takeWhile (fun b => decide (lt b a)) ∧
      l'.dropWhile (fun b => decide (lt' (f b) (f a))) =
        l'.dropWhile (fun b => decide (lt b a)) := by
    intro l' hl'
    induction l' with
    | nil => simp
    | cons b l' ih =>
        obtain ⟨i₁, i₂⟩ := ih fun c hc => hl' (by simp [hc])
        have := hf b (hl' (by simp))
        by_cases hb : lt b a <;> simp_all
  obtain ⟨h₁, h₂⟩ := hd l fun _ h => h
  unfold enter
  rw [List.map_append, List.map_cons, List.takeWhile_map, List.dropWhile_map]
  simp only [Function.comp_def]
  rw [h₁, h₂]

end RTS.Support

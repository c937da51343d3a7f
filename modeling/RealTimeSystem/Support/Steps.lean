import Mathlib.Logic.Basic

/-!
# Support — systems that act

`step a s` is the state after action `a` in `s`, or `none` where `a` cannot happen.  `Reached step C
s₀` are the states that `s₀` leads to by actions that meet `C` in the state they happen in.
-/

namespace RTS.Support

variable {S : Type*} {A : Type*} {step : A → S → Option S} {C : S → A → Prop} {s₀ s s' : S}

inductive Reached (step : A → S → Option S) (C : S → A → Prop) (s₀ : S) : S → Prop where
  | start : Reached step C s₀ s₀
  | next {s s' : S} {a : A} (h : Reached step C s₀ s) (hc : C s a) (ha : step a s = some s') :
      Reached step C s₀ s'

/-- The actions one after the other. -/
def acted (step : A → S → Option S) : List A → S → Option S
  | [], s => some s
  | a :: as, s => (step a s).bind (acted step as)

theorem acted_append {as bs : List A} (h : acted step as s = some s') :
    acted step (as ++ bs) s = acted step bs s' := by
  induction as generalizing s with
  | nil =>
      cases h
      rfl
  | cons a as ih =>
      obtain ⟨s₁, h₁, h₂⟩ := Option.bind_eq_some_iff.mp h
      show (step a s).bind (acted step (as ++ bs)) = _
      rw [h₁, Option.bind_some]
      exact ih h₂

/-- An action that goes on until `Q`, with less to do each time, gets there. -/
theorem acted_until {P Q : S → Prop} (μ : S → Nat) {a : A}
    (h : ∀ s, P s → ∃ s', step a s = some s' ∧ (Q s' ∨ P s' ∧ μ s' < μ s)) (hs : P s) :
    ∃ n s', acted step (List.replicate n a) s = some s' ∧ Q s' := by
  induction hk : μ s using Nat.strongRecOn generalizing s with
  | _ k ih =>
      obtain ⟨s₁, h₁, hq | ⟨hp, hlt⟩⟩ := h s hs
      · refine ⟨1, s₁, ?_, hq⟩
        rw [List.replicate_one, acted, h₁]
        rfl
      · obtain ⟨n, s', hn, hq⟩ := ih (μ s₁) (hk ▸ hlt) hp rfl
        refine ⟨n + 1, s', ?_, hq⟩
        rw [List.replicate_succ, acted, h₁]
        exact hn

/-- Each action meets the condition where it happens. -/
def Meets (step : A → S → Option S) (C : S → A → Prop) : List A → S → Prop
  | [], _ => True
  | a :: as, s => C s a ∧ (step a s).elim True (Meets step C as)

instance Meets.decidable [∀ s a, Decidable (C s a)] :
    (as : List A) → (s : S) → Decidable (Meets step C as s)
  | [], _ => .isTrue trivial
  | a :: as, s =>
      have := Meets.decidable as
      match h : step a s with
      | none => decidable_of_iff (C s a) (by simp [Meets, h])
      | some s' => decidable_of_iff (C s a ∧ Meets step C as s') (by simp [Meets, h])

theorem Meets.mono {C' : S → A → Prop} (h : ∀ s a, C s a → C' s a) {as : List A}
    (hm : Meets step C as s) : Meets step C' as s := by
  induction as generalizing s with
  | nil => trivial
  | cons a as ih =>
      obtain ⟨hc, hs⟩ := hm
      refine ⟨h s a hc, ?_⟩
      cases hst : step a s with
      | none => trivial
      | some s' =>
          rw [hst] at hs
          exact ih hs

theorem Meets.of_forall {as : List A} (h : ∀ a ∈ as, ∀ s, C s a) (s : S) : Meets step C as s := by
  induction as generalizing s with
  | nil => trivial
  | cons a as ih =>
      refine ⟨h a List.mem_cons_self s, ?_⟩
      cases step a s with
      | none => trivial
      | some s' => exact ih (fun b hb => h b (List.mem_cons_of_mem _ hb)) s'

namespace Reached

/-- What holds at the start and is kept by every action holds in every state reached. -/
theorem invariant {I : S → Prop} (h : Reached step C s₀ s) (h0 : I s₀)
    (hstep : ∀ s a s', I s → C s a → step a s = some s' → I s') : I s := by
  induction h with
  | start => exact h0
  | next _ hc ha ih => exact hstep _ _ _ ih hc ha

theorem mono {C' : S → A → Prop} (h : Reached step C s₀ s) (hC : ∀ s a, C s a → C' s a) :
    Reached step C' s₀ s := by
  induction h with
  | start => exact .start
  | next _ hc ha ih => exact ih.next (hC _ _ hc) ha

theorem trans (h : Reached step C s₀ s) (h' : Reached step C s s') : Reached step C s₀ s' := by
  induction h' with
  | start => exact h
  | next _ hc ha ih => exact ih.next hc ha

theorem of_acted {as : List A} (h : acted step as s = some s') (hc : Meets step C as s) :
    Reached step C s s' := by
  induction as generalizing s with
  | nil =>
      cases h
      exact .start
  | cons a as ih =>
      obtain ⟨s₁, h1, h2⟩ := Option.bind_eq_some_iff.mp h
      obtain ⟨hca, hcs⟩ := hc
      rw [h1] at hcs
      exact (Reached.start.next hca h1).trans (ih h2 hcs)

end Reached

end RTS.Support

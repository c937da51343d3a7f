import RealTimeSystem.Support.Interact

/-!
# Support — programs that ask beside others

Several programs that ask, and one environment `K` that answers them.  Between two questions of one
program the others may change the environment, so what a program knows of it is written as an
annotation `J x s k` at each question, where `x` is the part of it that the state `s` does not tell.

`Outline J serves Q x s k` is a proof outline of `x`: the annotation holds at every question if it
still held when the question before was answered, and `Q` at the end.  `serves s c a k k'` says that
`a` is an answer to `c` from `k` which leaves `k'`.
-/

namespace RTS.Support

variable {S C K X : Type} {A : C → Type} {α β : Type}

namespace Tree

/-- The state a program holds, at its question or its end. -/
def state : Tree S C A α → S
  | ret _ s => s
  | ask s _ _ => s

def Outline (J : X → S → K → Prop) (serves : S → (c : C) → A c → K → K → Prop)
    (Q : α → S → K → Prop) : Tree S C A α → K → Prop
  | ret a s, k => Q a s k
  | ask s c f, k =>
      ∃ x, J x s k ∧ ∀ a k₁ k₂, J x s k₁ → serves s c a k₁ k₂ → (f a).Outline J serves Q k₂

variable {J : X → S → K → Prop} {serves : S → (c : C) → A c → K → K → Prop} {Q Q' : α → S → K → Prop}
  {t : Tree S C A α} {k k' : K}

theorem outline_bind {f : α → S → Tree S C A β} {P : β → S → K → Prop} :
    (t.bind f).Outline J serves P k ↔
      t.Outline J serves (fun a s k => (f a s).Outline J serves P k) k := by
  induction t generalizing k with
  | ret a s => rfl
  | ask s c g ih =>
      refine exists_congr fun x => and_congr_right fun _ => ?_
      exact forall_congr' fun a => forall_congr' fun k₁ => forall_congr' fun k₂ =>
        imp_congr_right fun _ => imp_congr_right fun _ => ih a

theorem Outline.mono (h : t.Outline J serves Q k) (hQ : ∀ a s k, Q a s k → Q' a s k) :
    t.Outline J serves Q' k := by
  induction t generalizing k with
  | ret a s => exact hQ a s k h
  | ask s c g ih =>
      obtain ⟨x, hx, hk⟩ := h
      exact ⟨x, hx, fun a k₁ k₂ h₁ h₂ => ih a (hk a k₁ k₂ h₁ h₂)⟩

/-- What a program knows where it stands. -/
theorem Outline.now {x₀ : X} (h : t.Outline J serves (fun _ s k => J x₀ s k) k) :
    ∃ x, J x t.state k := by
  cases t with
  | ret a s => exact ⟨x₀, h⟩
  | ask s c g =>
      obtain ⟨x, hx, -⟩ := h
      exact ⟨x, hx⟩

/-- A change of the environment that keeps what the program knows. -/
theorem Outline.stable {x₀ : X} (h : t.Outline J serves (fun _ s k => J x₀ s k) k)
    (hk : ∀ x, J x t.state k → J x t.state k') :
    t.Outline J serves (fun _ s k => J x₀ s k) k' := by
  cases t with
  | ret a s => exact hk x₀ h
  | ask s c g =>
      obtain ⟨x, hx, hnext⟩ := h
      exact ⟨x, hk x hx, hnext⟩

end Tree

/-- The outline of a program from a state. -/
def Outline (J : X → S → K → Prop) (serves : S → (c : C) → A c → K → K → Prop)
    (Q : α → S → K → Prop) (x : Ask S C A α) (s : S) (k : K) : Prop :=
  (x s).Outline J serves Q k

section
variable {J : X → S → K → Prop} {serves : S → (c : C) → A c → K → K → Prop} {Q Q' : α → S → K → Prop}
  {x : Ask S C A α} {s : S} {k : K}

theorem Outline.mono (h : Outline J serves Q x s k) (hQ : ∀ a s k, Q a s k → Q' a s k) :
    Outline J serves Q' x s k :=
  Tree.Outline.mono h hQ

theorem outline_pure {a : α} :
    Outline J serves Q (pure a : Ask S C A α) s k ↔ Q a s k := Iff.rfl

theorem outline_bind {f : α → Ask S C A β} {P : β → S → K → Prop} :
    Outline J serves P (x >>= f) s k ↔
      Outline J serves (fun a s k => Outline J serves P (f a) s k) x s k :=
  Tree.outline_bind

theorem outline_get {P : S → S → K → Prop} :
    Outline J serves P (get : Ask S C A S) s k ↔ P s s k := Iff.rfl

theorem outline_modify {f : S → S} {P : PUnit → S → K → Prop} :
    Outline J serves P (modify f : Ask S C A PUnit) s k ↔ P ⟨⟩ (f s) k := Iff.rfl

theorem Outline.ask {c : C} {P : A c → S → K → Prop} (x : X) (h : J x s k)
    (hnext : ∀ a k₁ k₂, J x s k₁ → serves s c a k₁ k₂ → P a s k₂) :
    Outline J serves P (ask c : Ask S C A (A c)) s k :=
  ⟨x, h, hnext⟩

theorem Outline.ite {c : Prop} [Decidable c] {y : Ask S C A α} (ht : c → Outline J serves Q x s k)
    (hf : ¬ c → Outline J serves Q y s k) : Outline J serves Q (if c then x else y) s k := by
  by_cases h : c
  · rw [if_pos h]; exact ht h
  · rw [if_neg h]; exact hf h

end

end RTS.Support

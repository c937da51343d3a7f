import RealTimeSystem.Support.Wp

/-!
# Support — specifications that choose

A `Spec τ α` is a program that may choose: `y t a t'` says that from `t` it may return `a` in `t'`.
Where it relates nothing to `t`, it does not return.  Specifications are written like programs;
`guess` returns any value with a property.  `Ensures y t Q` says that `y` ends only where `Q` holds.

`Mirrors x y s t Q` says that what `x` returns from `s` is what `y` may return from `t`, up to `Q`.
The rules go along both texts: a call that has a counterpart (`bind`), a step of `x` alone
(`behind`), and a choice of `y` alone (`ahead`).
-/

namespace RTS.Support

/-- From a state, any of the results and states that it relates to it. -/
def Spec (τ α : Type) : Type := τ → α → τ → Prop

namespace Spec

variable {τ α β : Type}

instance : Monad (Spec τ) where
  pure a := fun t b t' => b = a ∧ t' = t
  bind y f := fun t b t'' => ∃ a t', y t a t' ∧ f a t' b t''

/-- Any value with the property. -/
def guess (P : τ → α → Prop) : Spec τ α := fun t a t' => P t a ∧ t' = t

def get : Spec τ τ := guess fun t a => a = t

def modify (f : τ → τ) : Spec τ Unit := fun t _ t' => t' = f t

/-- It never returns. -/
def never : Spec τ α := fun _ _ _ => False

variable {y : Spec τ α} {f : α → Spec τ β} {t t' : τ} {a : α} {b : β}

@[simp] theorem pure_iff {b : α} : (pure a : Spec τ α) t b t' ↔ b = a ∧ t' = t := Iff.rfl

@[simp] theorem bind_iff :
    (y >>= f) t b t' ↔ ∃ a t₁, y t a t₁ ∧ f a t₁ b t' := Iff.rfl

@[simp] theorem guess_iff {P : τ → α → Prop} : guess P t a t' ↔ P t a ∧ t' = t := Iff.rfl

@[simp] theorem get_iff {r : τ} : (get : Spec τ τ) t r t' ↔ r = t ∧ t' = t := Iff.rfl

@[simp] theorem modify_iff {f : τ → τ} {u : Unit} : modify f t u t' ↔ t' = f t := Iff.rfl

/-- From `t`, a specification only ends where `Q` holds. -/
def Ensures (y : Spec τ α) (t : τ) (Q : α → τ → Prop) : Prop := ∀ a t', y t a t' → Q a t'

namespace Ensures

variable {Q Q' : α → τ → Prop} {P : β → τ → Prop}

theorem mono (h : Ensures y t Q) (hQ : ∀ a t', Q a t' → Q' a t') : Ensures y t Q' :=
  fun a t' hy => hQ a t' (h a t' hy)

theorem pure (h : Q a t) : Ensures (pure a : Spec τ α) t Q := by
  rintro _ _ ⟨rfl, rfl⟩
  exact h

theorem guess {G : τ → α → Prop} (h : ∀ a, G t a → Q a t) : Ensures (guess G) t Q := by
  rintro a _ ⟨hg, rfl⟩
  exact h a hg

theorem get {Q : τ → τ → Prop} (h : Q t t) : Ensures (get : Spec τ τ) t Q := guess fun _ e => e ▸ h

theorem modify {g : τ → τ} {Q : Unit → τ → Prop} (h : Q () (g t)) : Ensures (modify g) t Q := by
  rintro _ _ rfl
  exact h

theorem never : Ensures (never : Spec τ α) t Q := fun _ _ h => h.elim

theorem bind (h : Ensures y t fun a t' => Ensures (f a) t' P) : Ensures (y >>= f) t P :=
  fun b t'' ⟨a, t', hy, hf⟩ => h a t' hy b t'' hf

theorem map {g : α → β} (h : Ensures y t fun a => P (g a)) : Ensures (g <$> y) t P := by
  rintro _ t' ⟨a, _, hy, rfl, rfl⟩
  exact h a t' hy

theorem ite {c : Prop} [Decidable c] {y' : Spec τ α} (h : c → Ensures y t Q)
    (h' : ¬ c → Ensures y' t Q) : Ensures (if c then y else y') t Q := by
  split_ifs with hc
  · exact h hc
  · exact h' hc

end Ensures

/-- Wherever it starts, a specification ends where `T` relates the two. -/
def Within (T : τ → τ → Prop) (y : Spec τ α) : Prop := ∀ t, Ensures y t fun _ t' => T t t'

namespace Within

variable {T : τ → τ → Prop}

theorem pure [Std.Refl T] : Within T (pure a : Spec τ α) := fun t => .pure (refl t)

theorem guess [Std.Refl T] {P : τ → α → Prop} : Within T (guess P) := fun t =>
  .guess fun _ _ => refl t

theorem get [Std.Refl T] : Within T (get : Spec τ τ) := guess

theorem modify {g : τ → τ} (h : ∀ t, T t (g t)) : Within T (modify g) := fun t => .modify (h t)

theorem bind [IsTrans τ T] (h : Within T y) (hf : ∀ a, Within T (f a)) :
    Within T (y >>= f) := fun t =>
  .bind fun a t' hy => (hf a t').mono fun _ _ h' => trans_of T (h t a t' hy) h'

theorem ite {c : Prop} [Decidable c] {y' : Spec τ α} (h : Within T y) (h' : Within T y') :
    Within T (if c then y else y') := fun t => .ite (fun _ => h t) fun _ => h' t

end Within

end Spec

variable {ε σ τ α β γ δ : Type}

/-- What `x` returns from `s`, `y` may return from `t`, up to `Q`. -/
def Mirrors (x : EStateM ε σ α) (y : Spec τ β) (s : σ) (t : τ) (Q : α → β → σ → τ → Prop) : Prop :=
  Wp x s (fun a s' => ∃ b t', y t b t' ∧ Q a b s' t') fun _ _ => True

namespace Mirrors

variable {x : EStateM ε σ α} {y : Spec τ β} {s : σ} {t : τ} {Q Q' : α → β → σ → τ → Prop}

theorem mono (h : Mirrors x y s t Q) (hQ : ∀ a b s' t', Q a b s' t' → Q' a b s' t') :
    Mirrors x y s t Q' :=
  Wp.mono h (fun a _ ⟨b, t', hy, hq⟩ => ⟨b, t', hy, hQ a b _ t' hq⟩) fun _ _ => id

/-- What is known of the ends includes the step of the specification. -/
theorem with_spec (h : Mirrors x y s t Q) :
    Mirrors x y s t fun a b s' t' => y t b t' ∧ Q a b s' t' :=
  Wp.mono h (fun _ _ ⟨b, t', hy, hq⟩ => ⟨b, t', hy, hy, hq⟩) fun _ _ => id

theorem of_ok (h : Mirrors x y s t Q) {a : α} {s' : σ} (hx : x s = .ok a s') :
    ∃ b t', y t b t' ∧ Q a b s' t' := Wp.of_ok h hx

theorem pure {a : α} {b : β} (h : Q a b s t) : Mirrors (pure a : EStateM ε σ α) (pure b) s t Q :=
  ⟨b, t, ⟨rfl, rfl⟩, h⟩

/-- A call and its counterpart. -/
theorem bind {f : α → EStateM ε σ γ} {g : β → Spec τ δ} {P : γ → δ → σ → τ → Prop}
    (h : Mirrors x y s t fun a b s' t' => Mirrors (f a) (g b) s' t' P) :
    Mirrors (x >>= f) (y >>= g) s t P :=
  wp_bind.mpr (Wp.mono h (fun _ _ ⟨b, t', hy, hf⟩ =>
    Wp.mono hf (fun _ _ ⟨d, t'', hg, hp⟩ => ⟨d, t'', ⟨b, t', hy, hg⟩, hp⟩) fun _ _ => id)
    fun _ _ => id)

theorem map {f : α → γ} {g : β → δ} {P : γ → δ → σ → τ → Prop}
    (h : Mirrors x y s t fun a b => P (f a) (g b)) : Mirrors (f <$> x) (g <$> y) s t P :=
  wp_map.mpr (Wp.mono h (fun _ _ ⟨b, t', hy, hp⟩ => ⟨g b, t', ⟨b, t', hy, rfl, rfl⟩, hp⟩)
    fun _ _ => id)

/-- The program goes on alone. -/
theorem behind {f : α → EStateM ε σ γ} {z : Spec τ δ} {P : γ → δ → σ → τ → Prop}
    (h : Wp x s (fun a s' => Mirrors (f a) z s' t P) fun _ _ => True) :
    Mirrors (x >>= f) z s t P :=
  wp_bind.mpr h

/-- The specification goes on alone. -/
theorem ahead {z : EStateM ε σ γ} {g : β → Spec τ δ} {P : γ → δ → σ → τ → Prop} {b : β} {t' : τ}
    (hy : y t b t') (h : Mirrors z (g b) s t' P) : Mirrors z (y >>= g) s t P :=
  Wp.mono h (fun _ _ ⟨d, t'', hg, hp⟩ => ⟨d, t'', ⟨b, t', hy, hg⟩, hp⟩) fun _ _ => id

/-- A choice. -/
theorem guess {z : EStateM ε σ γ} {P : τ → β → Prop} {g : β → Spec τ δ}
    {P' : γ → δ → σ → τ → Prop} {b : β} (hb : P t b) (h : Mirrors z (g b) s t P') :
    Mirrors z (Spec.guess P >>= g) s t P' := ahead ⟨hb, rfl⟩ h

theorem get {z : EStateM ε σ γ} {g : τ → Spec τ δ} {P : γ → δ → σ → τ → Prop}
    (h : Mirrors z (g t) s t P) : Mirrors z (Spec.get >>= g) s t P := guess rfl h

/-- The two take the same branch. -/
theorem ite {c c' : Prop} [Decidable c] [Decidable c'] {x' : EStateM ε σ α} {y' : Spec τ β}
    (hc : c' ↔ c) (ht : c → Mirrors x y s t Q) (hf : ¬ c → Mirrors x' y' s t Q) :
    Mirrors (if c then x else x') (if c' then y else y') s t Q := by
  by_cases h : c
  · rw [if_pos h, if_pos (hc.mpr h)]
    exact ht h
  · rw [if_neg h, if_neg fun h' => h (hc.mp h')]
    exact hf h

/-- A program whose results are all allowed, in one state each. -/
theorem of_wp {P : α → σ → Prop} {E : ε → σ → Prop} (h : Wp x s P E)
    (hP : ∀ a s', P a s' → ∃ b t', y t b t' ∧ Q a b s' t') : Mirrors x y s t Q :=
  h.mono hP fun _ _ _ => trivial

theorem of_returns {P : α → σ → Prop} (h : Returns x s P)
    (hP : ∀ a s', P a s' → ∃ b t', y t b t' ∧ Q a b s' t') : Mirrors x y s t Q :=
  of_wp h hP

end Mirrors

end RTS.Support

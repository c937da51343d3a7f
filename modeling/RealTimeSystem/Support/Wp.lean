import Mathlib.Order.Defs.Unbundled
import Mathlib.Tactic.Common

/-!
# Support — weakest preconditions of stateful programs that may stop

A program `x : EStateM ε σ α` started in `s` either returns a value in a new state, or stops
abnormally with a reason `ε`.  `Wp x s Q E` says that it does one of the two and that the value
and the state satisfy `Q`, or the reason and the state satisfy `E`.  With `E` empty it is total
correctness (`Returns`).

The rules are equivalences, one for each way a program is built, so that `Wp` of a program is
computed from its text; a called program is replaced by its specification with `Wp.mono`.

`Along T x` says that `x` goes from a state only to states that `T` relates to it.  When `T` is
reflexive and transitive, this too is read off the text of `x`.
-/

namespace RTS.Support

variable {ε σ α β : Type}

/-- From `s`, `x` returns with `Q` or stops with `E`. -/
def Wp (x : EStateM ε σ α) (s : σ) (Q : α → σ → Prop) (E : ε → σ → Prop) : Prop :=
  match x s with
  | .ok a s' => Q a s'
  | .error e s' => E e s'

/-- From `s`, `x` returns, with `Q`. -/
def Returns (x : EStateM ε σ α) (s : σ) (Q : α → σ → Prop) : Prop :=
  Wp x s Q fun _ _ => False

variable {x : EStateM ε σ α} {s : σ} {Q Q' : α → σ → Prop} {E E' : ε → σ → Prop}

/-- Both postconditions are weakened. -/
theorem Wp.mono (h : Wp x s Q E) (hQ : ∀ a s', Q a s' → Q' a s') (hE : ∀ e s', E e s' → E' e s') :
    Wp x s Q' E' := by
  unfold Wp at *
  cases hx : x s with
  | ok a s' => rw [hx] at h; exact hQ a s' h
  | error e s' => rw [hx] at h; exact hE e s' h

theorem Returns.mono (h : Returns x s Q) (hQ : ∀ a s', Q a s' → Q' a s') : Returns x s Q' :=
  Wp.mono h hQ fun _ _ => id

/-- A program that returns may be given any postcondition for its stops. -/
theorem Returns.to_wp (h : Returns x s Q) : Wp x s Q E :=
  Wp.mono h (fun _ _ => id) fun _ _ => False.elim

/-- A program that returns has a result, and it satisfies the postcondition. -/
theorem Returns.exists_ok (h : Returns x s Q) : ∃ a s', x s = .ok a s' ∧ Q a s' := by
  unfold Returns Wp at h
  cases hx : x s with
  | ok a s' => rw [hx] at h; exact ⟨a, s', rfl, h⟩
  | error e s' => rw [hx] at h; exact h.elim

/-- What is known of the end of a program includes its run. -/
theorem Returns.with_eq (h : Returns x s Q) :
    Returns x s fun a s' => x s = .ok a s' ∧ Q a s' := by
  obtain ⟨a, s', hx, hq⟩ := h.exists_ok
  unfold Returns Wp
  rw [hx]
  exact ⟨rfl, hq⟩

/-- The result itself, beside what is known of it. -/
theorem Wp.with_eq (h : Wp x s Q E) : Wp x s (fun a s' => x s = .ok a s' ∧ Q a s') E := by
  unfold Wp at *
  cases hx : x s with
  | ok a s' => rw [hx] at h; exact ⟨rfl, h⟩
  | error e s' => rw [hx] at h; exact h

/-- Postconditions that hold anyway. -/
theorem Wp.of_forall (hQ : ∀ a s', Q a s') (hE : ∀ e s', E e s') : Wp x s Q E := by
  unfold Wp
  cases x s with
  | ok a s' => exact hQ a s'
  | error e s' => exact hE e s'

/-- What a run shows that was seen to return. -/
theorem Wp.of_ok (h : Wp x s Q E) {a : α} {s' : σ} (hx : x s = .ok a s') : Q a s' := by
  unfold Wp at h; rwa [hx] at h

theorem Returns.of_ok (h : Returns x s Q) {a : α} {s' : σ} (hx : x s = .ok a s') : Q a s' :=
  Wp.of_ok h hx

@[simp] theorem wp_pure {a : α} : Wp (pure a : EStateM ε σ α) s Q E ↔ Q a s := Iff.rfl

@[simp] theorem wp_bind {f : α → EStateM ε σ β} {R : β → σ → Prop} :
    Wp (x >>= f) s R E ↔ Wp x s (fun a s' => Wp (f a) s' R E) E := by
  show (match EStateM.bind x f s with | .ok a s' => R a s' | .error e s' => E e s') ↔ _
  unfold Wp EStateM.bind
  cases x s <;> rfl

/-- A run of a sequence is a run of its parts. -/
theorem bind_eq_ok {f : α → EStateM ε σ β} {b : β} {s' : σ} :
    (x >>= f) s = .ok b s' ↔ ∃ a s₁, x s = .ok a s₁ ∧ f a s₁ = .ok b s' := by
  show EStateM.bind x f s = _ ↔ _
  unfold EStateM.bind
  cases hx : x s with
  | ok a s₁ =>
      refine ⟨fun h => ⟨a, s₁, rfl, h⟩, fun ⟨a', s₁', e, h⟩ => ?_⟩
      cases e
      exact h
  | error e s₁ => exact ⟨(fun h => nomatch h), fun ⟨_, _, h, _⟩ => nomatch h⟩

/-- How a mapped program returned. -/
theorem map_eq_ok {f : α → β} {b : β} {s' : σ} :
    (f <$> x) s = .ok b s' ↔ ∃ a, x s = .ok a s' ∧ f a = b := by
  show EStateM.map f x s = _ ↔ _
  unfold EStateM.map
  cases x s with
  | ok a s₁ =>
      constructor
      · rintro ⟨⟩
        exact ⟨a, rfl, rfl⟩
      · rintro ⟨a', h, rfl⟩
        cases h
        rfl
  | error e s₁ =>
      constructor
      · rintro ⟨⟩
      · rintro ⟨a', h, -⟩
        cases h

theorem wp_map {f : α → β} {R : β → σ → Prop} :
    Wp (f <$> x) s R E ↔ Wp x s (fun a => R (f a)) E := by
  show (match EStateM.map f x s with | .ok a s' => R a s' | .error e s' => E e s') ↔ _
  unfold Wp EStateM.map
  cases x s <;> rfl

@[simp] theorem wp_get {Q : σ → σ → Prop} : Wp (get : EStateM ε σ σ) s Q E ↔ Q s s := Iff.rfl

@[simp] theorem wp_modify {f : σ → σ} {Q : PUnit → σ → Prop} :
    Wp (modify f : EStateM ε σ PUnit) s Q E ↔ Q ⟨⟩ (f s) := Iff.rfl

@[simp] theorem wp_modifyGet {f : σ → α × σ} :
    Wp (modifyGet f : EStateM ε σ α) s Q E ↔ Q (f s).1 (f s).2 := Iff.rfl

@[simp] theorem wp_throw {e : ε} : Wp (throw e : EStateM ε σ α) s Q E ↔ E e s := Iff.rfl

/-- A branch is taken by its condition. -/
theorem wp_ite {c : Prop} [Decidable c] {y : EStateM ε σ α} :
    Wp (if c then x else y) s Q E ↔ (c → Wp x s Q E) ∧ (¬ c → Wp y s Q E) := by
  by_cases h : c <;> simp [h]

/-- A conditional is handled branch by branch. -/
theorem Wp.ite {c : Prop} [Decidable c] {y : EStateM ε σ α} (ht : c → Wp x s Q E)
    (hf : ¬ c → Wp y s Q E) : Wp (if c then x else y) s Q E :=
  wp_ite.mpr ⟨ht, hf⟩

@[simp] theorem returns_pure {a : α} : Returns (pure a : EStateM ε σ α) s Q ↔ Q a s := Iff.rfl

@[simp] theorem returns_bind {f : α → EStateM ε σ β} {R : β → σ → Prop} :
    Returns (x >>= f) s R ↔ Returns x s fun a s' => Returns (f a) s' R := wp_bind

@[simp] theorem returns_get {Q : σ → σ → Prop} :
    Returns (get : EStateM ε σ σ) s Q ↔ Q s s := Iff.rfl

@[simp] theorem returns_modify {f : σ → σ} {Q : PUnit → σ → Prop} :
    Returns (modify f : EStateM ε σ PUnit) s Q ↔ Q ⟨⟩ (f s) := Iff.rfl

@[simp] theorem returns_modifyGet {f : σ → α × σ} :
    Returns (modifyGet f : EStateM ε σ α) s Q ↔ Q (f s).1 (f s).2 := Iff.rfl

@[simp] theorem not_returns_throw {e : ε} : ¬ Returns (throw e : EStateM ε σ α) s Q := id

theorem Returns.ite {c : Prop} [Decidable c] {y : EStateM ε σ α} (ht : c → Returns x s Q)
    (hf : ¬ c → Returns y s Q) : Returns (if c then x else y) s Q :=
  Wp.ite ht hf

/-! ### What every step keeps -/

/-- `x` returns or stops in a state that `T` relates to the one it started in. -/
def Along (T : σ → σ → Prop) (x : EStateM ε σ α) : Prop :=
  ∀ s, Wp x s (fun _ s' => T s s') fun _ s' => T s s'

namespace Along

variable {T : σ → σ → Prop}

/-- A run that returns is related to its start. -/
theorem of_ok (h : Along T x) {a : α} {s' : σ} (hx : x s = .ok a s') : T s s' := Wp.of_ok (h s) hx

theorem ite {c : Prop} [Decidable c] {y : EStateM ε σ α} (hx : Along T x) (hy : Along T y) :
    Along T (if c then x else y) := fun s => Wp.ite (fun _ => hx s) fun _ => hy s

theorem modify {f : σ → σ} (h : ∀ s, T s (f s)) : Along T (modify f : EStateM ε σ PUnit) := h

theorem modifyGet {f : σ → α × σ} (h : ∀ s, T s (f s).2) :
    Along T (modifyGet f : EStateM ε σ α) := h

/-- A weaker relation. -/
theorem mono {U : σ → σ → Prop} (hx : Along T x) (h : ∀ s s', T s s' → U s s') : Along U x :=
  fun s => (hx s).mono (fun _ s' => h s s') fun _ s' => h s s'

/-- What two programs do one after the other; the first may also stop. -/
theorem seq {U V : σ → σ → Prop} {f : α → EStateM ε σ β} (hx : Along T x)
    (hf : ∀ a, Along U (f a)) (hstop : ∀ s s', T s s' → V s s')
    (h : ∀ s s' s'', T s s' → U s' s'' → V s s'') : Along V (x >>= f) := fun s =>
  wp_bind.mpr ((hx s).mono (fun a s' ht => (hf a s').mono (fun _ s'' => h s s' s'' ht)
    fun _ s'' => h s s' s'' ht) fun _ s' => hstop s s')

section
variable [Std.Refl T]

theorem pure {a : α} : Along T (pure a : EStateM ε σ α) := fun s => Std.Refl.refl s

theorem throw {e : ε} : Along T (throw e : EStateM ε σ α) := fun s => Std.Refl.refl s

theorem get : Along T (get : EStateM ε σ σ) := fun s => Std.Refl.refl s

end

/-- The relation is composed, so it is transitive; also a stop in the middle is related to the
start. -/
theorem bind [IsTrans σ T] {f : α → EStateM ε σ β} (hx : Along T x) (hf : ∀ a, Along T (f a)) :
    Along T (x >>= f) := hx.seq hf (fun _ _ => id) fun _ _ _ => IsTrans.trans _ _ _

end Along

end RTS.Support

import RealTimeSystem.Support.Wp

/-!
# Support — programs in sections

`Sections ε σ α` is a program that is cut into sections, each a program on the state `σ`.  Alone it
runs one section after the other (`run`).  Beside others a section is one step (`advance`), and
between two of its sections the others may change the state.

`Each T x` says that every section of `x`, from any state and after any answers of the sections
before it, returns only in a state that `T` relates to the one it started in.  It is read off the
text of `x`.
-/

namespace RTS.Support

inductive Sections (ε σ α : Type) : Type 1 where
  | done (a : α)
  | next {β : Type} (x : EStateM ε σ β) (rest : β → Sections ε σ α)

namespace Sections

variable {ε σ α β : Type}

def bind (f : α → Sections ε σ β) : Sections ε σ α → Sections ε σ β
  | done a => f a
  | next x rest => next x fun b => (rest b).bind f

instance : Monad (Sections ε σ) where
  pure := done
  bind x f := x.bind f

/-- One section. -/
def part (x : EStateM ε σ α) : Sections ε σ α := next x done

/-- All sections, one after the other. -/
def run : Sections ε σ α → EStateM ε σ α
  | done a => pure a
  | next x rest => x >>= fun b => (rest b).run

/-- The next section. -/
def advance : Sections ε σ α → σ → Option (Sections ε σ α × σ)
  | done _, _ => none
  | next x rest, s =>
      match x s with
      | .ok b s' => some (rest b, s')
      | .error _ _ => none

/-! ### Alone -/

@[simp] theorem run_pure (a : α) : (pure a : Sections ε σ α).run = pure a := rfl

@[simp] theorem run_part (x : EStateM ε σ α) : (part x).run = x := bind_pure x

@[simp] theorem run_bind (x : Sections ε σ α) (f : α → Sections ε σ β) :
    (x >>= f).run = x.run >>= fun a => (f a).run := by
  change (x.bind f).run = _
  induction x with
  | done a => exact (pure_bind a fun a => (f a).run).symm
  | next y rest ih =>
      rw [Sections.bind, run, run, bind_assoc]
      exact bind_congr ih

@[simp] theorem run_ite (c : Prop) [Decidable c] (x y : Sections ε σ α) :
    (if c then x else y).run = if c then x.run else y.run := apply_ite run c x y

/-! ### What every section keeps -/

def Each (T : σ → σ → Prop) : Sections ε σ α → Prop
  | done _ => True
  | next x rest => (∀ s, Wp x s (fun _ s' => T s s') fun _ _ => True) ∧ ∀ b, (rest b).Each T

namespace Each

variable {T : σ → σ → Prop} {x y : Sections ε σ α} {s s' : σ}

theorem pure (a : α) : Each T (Pure.pure a : Sections ε σ α) := trivial

theorem part {x : EStateM ε σ α} (h : ∀ s, Wp x s (fun _ s' => T s s') fun _ _ => True) :
    Each T (part x) := ⟨h, fun _ => trivial⟩

theorem bind {f : α → Sections ε σ β} (hx : Each T x) (hf : ∀ a, Each T (f a)) :
    Each T (x >>= f) := by
  change Each T (x.bind f)
  induction x with
  | done a => exact hf a
  | next y rest ih => exact ⟨hx.1, fun b => ih b (hx.2 b)⟩

theorem ite {c : Prop} [Decidable c] (hx : c → Each T x) (hy : ¬ c → Each T y) :
    Each T (if c then x else y) := by
  by_cases h : c
  · rw [if_pos h]
    exact hx h
  · rw [if_neg h]
    exact hy h

/-- One step. -/
theorem advance (h : Each T x) (hs : x.advance s = some (y, s')) : T s s' ∧ Each T y := by
  cases x with
  | done a => cases hs
  | next z rest =>
      simp only [Sections.advance] at hs
      cases hz : z s with
      | ok b s₁ =>
          rw [hz] at hs
          cases hs
          exact ⟨(h.1 s).of_ok hz, h.2 b⟩
      | error e s₁ =>
          rw [hz] at hs
          cases hs

end Each

end Sections

end RTS.Support

import Mathlib.Logic.Basic
import Mathlib.Order.Defs.Unbundled

/-!
# Support — programs that ask

`Tree S C A α` is a program that asks questions `C`, each with answers of its own type, and returns
a result.  At each question it shows the state `S` it holds; between two questions nobody sees it.
`Ask S C A` is the monad of such programs.

`Every x s l Q` says that, whatever the answers, `Q` holds at the end of `x` of the questions asked,
the result and the state; `l` are the questions asked before, newest first.  `Tree.run` lets an
oracle answer.
-/

namespace RTS.Support

variable {S C : Type} {A : C → Type} {α β : Type}

/-- A program: its result, or a question, with the state it holds and what it does with the
answer. -/
inductive Tree (S C : Type) (A : C → Type) (α : Type) where
  | ret (a : α) (s : S)
  | ask (s : S) (c : C) (k : A c → Tree S C A α)

/-- A question, when it was asked, and its answer. -/
structure Asked (S C : Type) (A : C → Type) where
  state : S
  call : C
  answer : A call

namespace Tree

def bind (f : α → S → Tree S C A β) : Tree S C A α → Tree S C A β
  | ret a s => f a s
  | ask s c k => ask s c fun a => (k a).bind f

/-- Whatever the answers, `Q` at the end. -/
def All (Q : List (Asked S C A) → α → S → Prop) : Tree S C A α → List (Asked S C A) → Prop
  | ret a s, l => Q l a s
  | ask s c k, l => ∀ a, (k a).All Q (⟨s, c, a⟩ :: l)

/-- The oracle answers the `n`-th question and those after it: the result, the state, and the number
of the next question. -/
def run (o : Nat → (c : C) → A c) : Tree S C A α → Nat → α × S × Nat
  | ret a s, n => (a, s, n)
  | ask _ c k, n => (k (o n c)).run o (n + 1)

/-- The questions the oracle is asked, newest first. -/
def asked (o : Nat → (c : C) → A c) :
    Tree S C A α → Nat → List (Asked S C A) → List (Asked S C A)
  | ret _ _, _, l => l
  | ask s c k, n, l => (k (o n c)).asked o (n + 1) (⟨s, c, o n c⟩ :: l)

variable {Q Q' : List (Asked S C A) → α → S → Prop} {t : Tree S C A α} {l : List (Asked S C A)}

theorem All.mono (h : t.All Q l) (hQ : ∀ l a s, Q l a s → Q' l a s) : t.All Q' l := by
  induction t generalizing l with
  | ret a s => exact hQ l a s h
  | ask s c k ih => exact fun a => ih a (h a)

theorem All.and (h : t.All Q l) (h' : t.All Q' l) :
    t.All (fun l a s => Q l a s ∧ Q' l a s) l := by
  induction t generalizing l with
  | ret a s => exact ⟨h, h'⟩
  | ask s c k ih => exact fun a => ih a (h a) (h' a)

theorem all_bind {f : α → S → Tree S C A β} {P : List (Asked S C A) → β → S → Prop} :
    (t.bind f).All P l ↔ t.All (fun l a s => (f a s).All P l) l := by
  induction t generalizing l with
  | ret a s => rfl
  | ask s c k ih => exact forall_congr' fun a => ih a

/-- What holds whatever the answers holds of those of an oracle. -/
theorem All.run (h : t.All Q l) (o : Nat → (c : C) → A c) (n : Nat) :
    Q (t.asked o n l) (t.run o n).1 (t.run o n).2.1 := by
  induction t generalizing n l with
  | ret a s => exact h
  | ask s c k ih => exact ih (o n c) (h _) (n + 1)

end Tree

/-- Programs that ask, from a state on. -/
def Ask (S C : Type) (A : C → Type) (α : Type) : Type := S → Tree S C A α

instance : Monad (Ask S C A) where
  pure a := fun s => .ret a s
  bind x f := fun s => (x s).bind f

instance : MonadStateOf S (Ask S C A) where
  get := fun s => .ret s s
  set s := fun _ => .ret ⟨⟩ s
  modifyGet f := fun s => .ret (f s).1 (f s).2

/-- Ask one question. -/
def ask (c : C) : Ask S C A (A c) := fun s => .ask s c fun a => .ret a s

/-! ### What holds whatever the answers -/

/-- From `s`, with the questions `l` asked before, `Q` at the end of `x`. -/
def Every (x : Ask S C A α) (s : S) (l : List (Asked S C A))
    (Q : List (Asked S C A) → α → S → Prop) : Prop :=
  (x s).All Q l

variable {x : Ask S C A α} {s : S} {l : List (Asked S C A)}
  {Q Q' : List (Asked S C A) → α → S → Prop}

theorem Every.mono (h : Every x s l Q) (hQ : ∀ l a s, Q l a s → Q' l a s) : Every x s l Q' :=
  Tree.All.mono h hQ

theorem Every.and (h : Every x s l Q) (h' : Every x s l Q') :
    Every x s l fun l a s => Q l a s ∧ Q' l a s :=
  Tree.All.and h h'

@[simp] theorem every_pure {a : α} : Every (pure a : Ask S C A α) s l Q ↔ Q l a s := Iff.rfl

@[simp] theorem every_bind {f : α → Ask S C A β} {P : List (Asked S C A) → β → S → Prop} :
    Every (x >>= f) s l P ↔ Every x s l fun l' a s' => Every (f a) s' l' P :=
  Tree.all_bind

@[simp] theorem every_get {Q : List (Asked S C A) → S → S → Prop} :
    Every (get : Ask S C A S) s l Q ↔ Q l s s := Iff.rfl

@[simp] theorem every_modify {f : S → S} {Q : List (Asked S C A) → PUnit → S → Prop} :
    Every (modify f : Ask S C A PUnit) s l Q ↔ Q l ⟨⟩ (f s) := Iff.rfl

@[simp] theorem every_ask {c : C} {Q : List (Asked S C A) → A c → S → Prop} :
    Every (ask c : Ask S C A (A c)) s l Q ↔ ∀ a, Q (⟨s, c, a⟩ :: l) a s := Iff.rfl

theorem Every.ite {c : Prop} [Decidable c] {y : Ask S C A α} (ht : c → Every x s l Q)
    (hf : ¬ c → Every y s l Q) : Every (if c then x else y) s l Q := by
  by_cases h : c
  · rw [if_pos h]; exact ht h
  · rw [if_neg h]; exact hf h

/-! ### What every step keeps -/

/-- Whatever the answers, `x` ends in a state that `T` relates to the one it started in. -/
def Throughout (T : S → S → Prop) (x : Ask S C A α) : Prop :=
  ∀ s l, Every x s l fun _ _ s' => T s s'

namespace Throughout

variable {T : S → S → Prop}

theorem ite {c : Prop} [Decidable c] {y : Ask S C A α} (hx : Throughout T x)
    (hy : Throughout T y) : Throughout T (if c then x else y) :=
  fun s l => .ite (fun _ => hx s l) fun _ => hy s l

theorem modify {f : S → S} (h : ∀ s, T s (f s)) : Throughout T (modify f : Ask S C A PUnit) :=
  fun s _ => h s

theorem bind [IsTrans S T] {f : α → Ask S C A β} (hx : Throughout T x)
    (hf : ∀ a, Throughout T (f a)) : Throughout T (x >>= f) := fun s l =>
  every_bind.mpr ((hx s l).mono fun l' a s' h => (hf a s' l').mono fun _ _ _ h' =>
    IsTrans.trans _ _ _ h h')

section
variable [Std.Refl T]

theorem pure {a : α} : Throughout T (pure a : Ask S C A α) := fun s _ => Std.Refl.refl s

theorem get : Throughout T (get : Ask S C A S) := fun s _ => Std.Refl.refl s

theorem ask {c : C} : Throughout T (ask c : Ask S C A (A c)) := fun s _ _ => Std.Refl.refl s

end

end Throughout

end RTS.Support

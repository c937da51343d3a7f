import Mathlib.Data.List.Basic

/-!
# Support — bounded queues

`Fifo Q M n` is a queue of `M` with room for `n`, by what its two operations promise: `push` puts an
element last, and refuses it when the queue is full; `pop` takes the first.

A receiver that pops the elements and passes them on one by one keeps a `Ledger`: what was accepted
is what was passed on, then what is in hand, then what is in the queue.
-/

namespace RTS.Support

structure Fifo (Q M : Type*) (n : Nat) where
  contents : Q → List M
  push : M → Q → Option Q
  pop : Q → Option (M × Q)
  push_some {m : M} {q q' : Q} : push m q = some q' →
    contents q' = contents q ++ [m] ∧ (contents q).length < n
  push_none {m : M} {q : Q} : push m q = none → n ≤ (contents q).length
  pop_some {m : M} {q q' : Q} : pop q = some (m, q') → contents q = m :: contents q'
  pop_none {q : Q} : pop q = none → contents q = []

namespace Fifo

variable {Q M : Type*} {n : Nat}

/-- A list, oldest first. -/
def list (M : Type*) (n : Nat) : Fifo (List M) M n where
  contents q := q
  push m q := if q.length < n then some (q ++ [m]) else none
  pop q := q.head?.map fun m => (m, q.tail)
  push_some h := by
    split_ifs at h with hlt
    cases h
    exact ⟨rfl, hlt⟩
  push_none h := by
    split_ifs at h with hlt
    exact Nat.not_lt.mp hlt
  pop_some {_ q _} h := by
    cases q with
    | nil => cases h
    | cons m q =>
        cases h
        rfl
  pop_none {q} h := by
    cases q with
    | nil => rfl
    | cons m q => cases h

variable (F : Fifo Q M n)

/-- Nothing is lost on the way, nothing comes twice, and the order is kept. -/
def Ledger (accepted passed hand : List M) (q : Q) : Prop :=
  accepted = passed ++ hand ++ F.contents q

variable {F} {accepted passed : List M} {hand : List M} {q q' : Q} {m : M}

namespace Ledger

theorem push (h : F.Ledger accepted passed hand q) (hp : F.push m q = some q') :
    F.Ledger (accepted ++ [m]) passed hand q' := by
  unfold Ledger at h ⊢
  rw [(F.push_some hp).1, h, List.append_assoc _ _ [m]]

theorem pop (h : F.Ledger accepted passed [] q) (hp : F.pop q = some (m, q')) :
    F.Ledger accepted passed [m] q' := by
  unfold Ledger at h ⊢
  rw [h, F.pop_some hp, List.append_nil, List.append_assoc, List.singleton_append]

theorem pass (h : F.Ledger accepted passed [m] q) : F.Ledger accepted (passed ++ [m]) [] q := by
  unfold Ledger at h ⊢
  rw [h, List.append_nil]

/-- What was passed on is where the accepted elements begin. -/
theorem passed_isPrefix (h : F.Ledger accepted passed hand q) : passed <+: accepted :=
  ⟨hand ++ F.contents q, by rw [← List.append_assoc]; exact h.symm⟩

theorem drained (h : F.Ledger accepted passed [] q) (hp : F.pop q = none) : passed = accepted := by
  unfold Ledger at h
  rw [h, F.pop_none hp, List.append_nil, List.append_nil]

/-- A full queue holds the elements that are not passed on. -/
theorem full (h : F.Ledger accepted passed hand q) (hp : F.push m q = none) :
    passed.length + n ≤ accepted.length := by
  have hn := F.push_none hp
  unfold Ledger at h
  rw [h, List.length_append, List.length_append]
  omega

end Ledger

end Fifo

end RTS.Support

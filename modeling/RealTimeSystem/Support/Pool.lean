import Mathlib.Data.List.Nodup
import Mathlib.Data.List.Perm.Basic
import Mathlib.Logic.Function.Basic
import Mathlib.Tactic.Common

/-!
# Support — null-terminated lists with a free list

A *pool* is the linkage of one kind of node: the root of the list in use, the root of the free
list, and one `next` field for each node, shared by the two lists.  `0` is the null pointer.
The operations are the idioms of hand-written C: walk a `prev` cursor (a pointer to the cell
that holds the next pointer), store through it, push and pop at a root.

`Chain next hd xs` says that the list from `hd` visits exactly `xs` and then meets null.  A
chain has no repetition (`Chain.nodup`), so a walk over it ends.  `Pool.Rep p act free` says
that the two lists are `act` and `free`; each operation has one theorem that says what it does
to them.
-/

namespace RTS.Support

/-! ### Chains -/

/-- From `hd`, following `next` visits `xs` and ends at null. -/
def Chain (next : Nat → Nat) : Nat → List Nat → Prop
  | hd, [] => hd = 0
  | hd, x :: xs => hd = x ∧ x ≠ 0 ∧ Chain next (next x) xs

namespace Chain

variable {next next' : Nat → Nat} {hd : Nat} {xs ys : List Nat}

theorem head (h : Chain next hd xs) : hd = xs.headD 0 := by
  cases xs with
  | nil => exact h
  | cons x xs => exact h.1

theorem ne_zero (h : Chain next hd xs) : ∀ x ∈ xs, x ≠ 0 := by
  induction xs generalizing hd with
  | nil => simp
  | cons x xs ih =>
      intro y hy
      rcases List.mem_cons.mp hy with rfl | hy
      · exact h.2.1
      · exact ih h.2.2 y hy

/-- A chain reads the link field of its own nodes only. -/
theorem congr (h : Chain next hd xs) (e : ∀ x ∈ xs, next' x = next x) : Chain next' hd xs := by
  induction xs generalizing hd with
  | nil => exact h
  | cons x xs ih =>
      refine ⟨h.1, h.2.1, ?_⟩
      rw [e x (by simp)]
      exact ih h.2.2 fun y hy => e y (by simp [hy])

theorem unique (h : Chain next hd xs) (h' : Chain next hd ys) : xs = ys := by
  induction xs generalizing hd ys with
  | nil =>
      cases ys with
      | nil => rfl
      | cons y ys => exact absurd (h'.1.symm.trans h) h'.2.1
  | cons x xs ih =>
      cases ys with
      | nil => exact absurd (h.1.symm.trans h') h.2.1
      | cons y ys =>
          obtain rfl : x = y := h.1.symm.trans h'.1
          rw [ih h.2.2 h'.2.2]

/-- The part of a chain behind a prefix is a chain. -/
theorem suffix (xs ys : List Nat) (h : Chain next hd (xs ++ ys)) :
    Chain next (ys.headD 0) ys := by
  induction xs generalizing hd with
  | nil => exact head h ▸ h
  | cons x xs ih => exact ih h.2.2

/-- Storing in the link of `u` the head of another chain replaces what follows `u`. -/
theorem relink {us zs : List Nat} {u : Nat} (h : Chain next hd (us ++ u :: ys))
    (hz : Chain next (zs.headD 0) zs) (hu : u ∉ us ++ zs) :
    Chain (Function.update next u (zs.headD 0)) hd (us ++ u :: zs) := by
  induction us generalizing hd with
  | nil =>
      refine ⟨h.1, h.2.1, ?_⟩
      rw [Function.update_self]
      exact hz.congr fun z hm => Function.update_of_ne (fun e => hu (by simp [← e, hm])) _ _
  | cons v us ih =>
      -- on the nodes before `u` the link field is unchanged
      refine ⟨h.1, h.2.1, ?_⟩
      rw [Function.update_of_ne fun e => hu (by simp [e])]
      exact ih h.2.2 fun hm => hu (List.mem_cons_of_mem _ hm)

/-- A chain is acyclic: no node is visited twice. -/
theorem nodup (h : Chain next hd xs) : xs.Nodup := by
  rw [List.nodup_iff_sublist]
  intro a ha
  -- two occurrences of `a` start two chains of different length from the same node
  obtain ⟨l₁, l₂, rfl, h₁, h₂⟩ :=
    List.append_sublist_iff.mp (show List.Sublist ([a] ++ [a]) xs from ha)
  obtain ⟨u, v, rfl⟩ := List.append_of_mem (List.singleton_sublist.mp h₁)
  obtain ⟨u', v', rfl⟩ := List.append_of_mem (List.singleton_sublist.mp h₂)
  have c₁ : Chain next a (a :: (v ++ (u' ++ a :: v'))) := by
    have := suffix u (a :: (v ++ (u' ++ a :: v'))) (by simpa using h)
    simpa using this
  have c₂ : Chain next a (a :: v') := by
    have := suffix (u ++ a :: (v ++ u')) (a :: v') (by simpa using h)
    simpa using this
  have := congrArg List.length (unique c₁ c₂)
  simp only [List.length_cons, List.length_append] at this
  omega

end Chain

/-! ### Pools -/

/-- The cell a `prev` cursor points at: the root of the list, or the link of a node. -/
inductive Link where
  | root
  | after (x : Nat)
  deriving DecidableEq

/-- The cell behind the nodes `xs`. -/
def Link.of (xs : List Nat) : Link :=
  match xs.getLast? with
  | none => .root
  | some x => .after x

@[simp] theorem Link.of_nil : Link.of [] = .root := rfl

@[simp] theorem Link.of_append_singleton (xs : List Nat) (x : Nat) :
    Link.of (xs ++ [x]) = .after x := by
  simp [Link.of]

/-- The linkage of one kind of node. -/
structure Pool where
  /-- root of the list in use -/
  list_ptr : Nat
  /-- root of the free list -/
  free_ptr : Nat
  /-- the link field of each node -/
  next_ptr : Nat → Nat

namespace Pool

/-- Two empty lists, in zeroed memory. -/
def nil : Pool := ⟨0, 0, fun _ => 0⟩

/-- `*prev`. -/
def deref (p : Pool) : Link → Nat
  | .root => p.list_ptr
  | .after x => p.next_ptr x

/-- `*prev = v`. -/
def store (p : Pool) (c : Link) (v : Nat) : Pool :=
  match c with
  | .root => { p with list_ptr := v }
  | .after x => { p with next_ptr := Function.update p.next_ptr x v }

/-- `x->next_ptr = v`. -/
def setNext (p : Pool) (x v : Nat) : Pool :=
  { p with next_ptr := Function.update p.next_ptr x v }

@[simp] theorem setNext_next_self (p : Pool) (x v : Nat) : (p.setNext x v).next_ptr x = v :=
  Function.update_self ..

theorem setNext_next_of_ne (p : Pool) {x y : Nat} (h : y ≠ x) (v : Nat) :
    (p.setNext x v).next_ptr y = p.next_ptr y :=
  Function.update_of_ne h ..

/-- Walk from `cur` to the first node that passes `test`, or to null. -/
def find (p : Pool) (test : Nat → Bool) : Nat → Nat → Option Nat
  | 0, _ => none
  | fuel + 1, cur =>
      if cur = 0 then some 0
      else if test cur then some cur
      else find p test fuel (p.next_ptr cur)

/-- Walk the cursor `prev` until `*prev` is null or passes `stop`. -/
def seek (p : Pool) (stop : Nat → Bool) : Nat → Link → Option Link
  | 0, _ => none
  | fuel + 1, prev =>
      if p.deref prev = 0 then some prev
      else if stop (p.deref prev) then some prev
      else seek p stop fuel (.after (p.deref prev))

/-- `x->next_ptr = *prev; *prev = x`. -/
def insertAt (p : Pool) (c : Link) (x : Nat) : Pool :=
  (p.setNext x (p.deref c)).store c x

/-- `*prev = x->next_ptr`. -/
def unlink (p : Pool) (c : Link) (x : Nat) : Pool :=
  p.store c (p.next_ptr x)

/-- `x->next_ptr = free_ptr; free_ptr = x`. -/
def pushFree (p : Pool) (x : Nat) : Pool :=
  { p.setNext x p.free_ptr with free_ptr := x }

/-- `x = free_ptr; free_ptr = x->next_ptr; x->next_ptr = 0`. -/
def popFree (p : Pool) : Pool :=
  { p with free_ptr := p.next_ptr p.free_ptr }.setNext p.free_ptr 0

/-- The list in use is `act`, the free list is `free`, and they share no node. -/
structure Rep (p : Pool) (act free : List Nat) : Prop where
  used : Chain p.next_ptr p.list_ptr act
  spare : Chain p.next_ptr p.free_ptr free
  nodup : (act ++ free).Nodup

namespace Rep

variable {p : Pool} {act free xs ys : List Nat} {x : Nat}

/-- The link of a node that is on neither list may be written. -/
theorem setNext (h : Rep p act free) (hx : x ∉ act ++ free) (v : Nat) :
    Rep (p.setNext x v) act free := by
  have e : ∀ y ∈ act ++ free, (p.setNext x v).next_ptr y = p.next_ptr y := fun y hy =>
    setNext_next_of_ne p (by rintro rfl; exact hx hy) v
  exact ⟨h.used.congr fun y hy => e y (by simp [hy]), h.spare.congr fun y hy => e y (by simp [hy]),
    h.nodup⟩

/-- `*prev` behind `xs` is the first of the nodes that follow. -/
theorem deref_of (h : Chain p.next_ptr p.list_ptr (xs ++ ys)) :
    p.deref (Link.of xs) = ys.headD 0 := by
  rcases List.eq_nil_or_concat' xs with rfl | ⟨zs, z, rfl⟩
  · exact h.head
  · rw [Link.of_append_singleton, deref]
    have := Chain.suffix zs (z :: ys) (by simpa using h)
    exact this.2.2.head

/-- Storing through the cursor behind `xs` the head of a chain replaces what follows. -/
theorem store_chain (h : Chain p.next_ptr p.list_ptr (xs ++ ys)) (zs : List Nat)
    (hz : Chain p.next_ptr (zs.headD 0) zs) (hxz : (xs ++ zs).Nodup) :
    Chain (p.store (Link.of xs) (zs.headD 0)).next_ptr
      (p.store (Link.of xs) (zs.headD 0)).list_ptr (xs ++ zs) := by
  rcases List.eq_nil_or_concat' xs with rfl | ⟨us, u, rfl⟩
  · exact hz
  · rw [Link.of_append_singleton, store]
    have h' : Chain p.next_ptr p.list_ptr (us ++ u :: ys) := by simpa using h
    have hn : (us ++ u :: zs).Nodup := by simpa using hxz
    have hu := (List.nodup_cons.mp (List.perm_middle.nodup_iff.mp hn)).1
    simpa using h'.relink hz hu

theorem store_free_ptr (p : Pool) (c : Link) (v : Nat) : (p.store c v).free_ptr = p.free_ptr := by
  cases c <;> rfl

theorem store_next_of_notMem (p : Pool) {v : Nat} (hx : x ∉ xs) :
    (p.store (Link.of xs) v).next_ptr x = p.next_ptr x := by
  rcases List.eq_nil_or_concat' xs with rfl | ⟨us, u, rfl⟩
  · rfl
  · rw [Link.of_append_singleton, store]
    exact Function.update_of_ne (fun e => hx (by simp [e])) _ _

/-- Inserting a loose node behind `xs`. -/
theorem insertAt (h : Rep p (xs ++ ys) free) (hx : x ∉ (xs ++ ys) ++ free) (h0 : x ≠ 0) :
    Rep (p.insertAt (Link.of xs) x) (xs ++ x :: ys) free := by
  have hS := h.setNext hx (ys.headD 0)
  have hd : p.insertAt (Link.of xs) x = (p.setNext x (ys.headD 0)).store (Link.of xs) x := by
    rw [Pool.insertAt, deref_of h.used]
  have hn : ((xs ++ x :: ys) ++ free).Nodup :=
    ((@List.perm_middle _ x xs ys).append_right free).nodup_iff.mpr
      (List.nodup_cons.mpr ⟨hx, h.nodup⟩)
  have hc : Chain (p.setNext x (ys.headD 0)).next_ptr x (x :: ys) := by
    refine ⟨rfl, h0, ?_⟩
    rw [setNext_next_self]
    exact Chain.suffix xs ys hS.used
  refine ⟨?_, ?_, hn⟩
  · rw [hd]
    exact store_chain hS.used (x :: ys) hc (List.nodup_append.mp hn).1
  · rw [hd, store_free_ptr]
    refine hS.spare.congr fun z hz => store_next_of_notMem _ fun hm => ?_
    exact (List.nodup_append.mp h.nodup).2.2 z (by simp [hm]) z hz rfl

/-- Unlinking the node behind `xs`. -/
theorem unlink (h : Rep p (xs ++ x :: ys) free) :
    Rep (p.unlink (Link.of xs) x) (xs ++ ys) free := by
  have hc : Chain p.next_ptr (p.next_ptr x) ys := (Chain.suffix xs (x :: ys) h.used).2.2
  have hn : ((xs ++ ys) ++ free).Nodup :=
    (((@List.perm_middle _ x xs ys).append_right free).nodup_iff.mp
      h.nodup).of_cons
  have hd : p.next_ptr x = ys.headD 0 := hc.head
  refine ⟨?_, ?_, hn⟩
  · rw [Pool.unlink, hd]
    rw [hd] at hc
    exact store_chain h.used ys hc (List.nodup_append.mp hn).1
  · rw [Pool.unlink, store_free_ptr]
    refine h.spare.congr fun z hz => store_next_of_notMem _ fun hm => ?_
    exact (List.nodup_append.mp hn).2.2 z (by simp [hm]) z hz rfl

/-- Freeing a loose node. -/
theorem pushFree (h : Rep p act free) (hx : x ∉ act ++ free) (h0 : x ≠ 0) :
    Rep (p.pushFree x) act (x :: free) := by
  have hS := h.setNext hx p.free_ptr
  refine ⟨hS.used, ⟨rfl, h0, ?_⟩, List.perm_middle.nodup_iff.mpr (List.nodup_cons.mpr ⟨hx, h.nodup⟩)⟩
  show Chain _ ((p.setNext x p.free_ptr).next_ptr x) free
  rw [setNext_next_self]
  exact hS.spare

theorem free_ptr_eq (h : Rep p act free) : p.free_ptr = free.headD 0 := h.spare.head

/-- Taking the first free node. -/
theorem popFree (h : Rep p act (x :: free)) : Rep p.popFree act free := by
  have hx : p.free_ptr = x := h.spare.1
  have hn := (@List.perm_middle _ x act free).nodup_iff.mp h.nodup
  have h' : Rep { p with free_ptr := p.next_ptr p.free_ptr } act free :=
    ⟨h.used, by rw [hx]; exact h.spare.2.2, hn.of_cons⟩
  rw [Pool.popFree]
  exact h'.setNext (hx ▸ (List.nodup_cons.mp hn).1) 0

/-- A walk with enough fuel finds the first node that passes the test, or null. -/
theorem find {hd : Nat} (h : Chain p.next_ptr hd xs) (test : Nat → Bool) {fuel : Nat}
    (hf : xs.length < fuel) : p.find test fuel hd = some ((xs.find? test).getD 0) := by
  induction xs generalizing hd fuel with
  | nil =>
      obtain ⟨n, rfl⟩ : ∃ n, fuel = n + 1 := ⟨fuel - 1, by simp at hf; omega⟩
      obtain rfl : hd = 0 := h
      rfl
  | cons x xs ih =>
      obtain ⟨n, rfl⟩ : ∃ n, fuel = n + 1 := ⟨fuel - 1, by simp at hf; omega⟩
      obtain ⟨rfl, h0, hc⟩ := h
      cases ht : test hd with
      | true => simp [Pool.find, h0, ht]
      | false =>
          simp only [Pool.find, h0, ht, if_false, Bool.false_eq_true, List.find?_cons]
          exact ih hc (by simp at hf; omega)

/-- A cursor walk with enough fuel stops behind the nodes that fail the test. -/
theorem seek (h : Chain p.next_ptr p.list_ptr (xs ++ ys)) (stop : Nat → Bool) {fuel : Nat}
    (hf : ys.length < fuel) :
    p.seek stop fuel (Link.of xs) = some (Link.of (xs ++ ys.takeWhile fun y => !stop y)) := by
  induction ys generalizing xs fuel with
  | nil =>
      obtain ⟨n, rfl⟩ : ∃ n, fuel = n + 1 := ⟨fuel - 1, by simp at hf; omega⟩
      simp [Pool.seek, deref_of h]
  | cons y ys ih =>
      obtain ⟨n, rfl⟩ : ∃ n, fuel = n + 1 := ⟨fuel - 1, by simp at hf; omega⟩
      have hy : p.deref (Link.of xs) = y := deref_of h
      have h0 : y ≠ 0 := h.ne_zero y (by simp)
      cases ht : stop y with
      | true => simp [Pool.seek, hy, ht, h0]
      | false =>
          have h' : Chain p.next_ptr p.list_ptr ((xs ++ [y]) ++ ys) := by simpa using h
          have hf' : ys.length < n := by simp at hf; omega
          have := ih h' hf'
          simpa [Pool.seek, hy, ht, h0] using this

end Rep

end Pool

end RTS.Support

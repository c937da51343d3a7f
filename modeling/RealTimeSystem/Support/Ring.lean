import Mathlib.Data.List.Flatten
import Mathlib.Data.List.Nodup
import Mathlib.Data.List.Perm.Basic
import Mathlib.Logic.Function.Basic
import Mathlib.Tactic.Common

/-!
# Support — rings of doubly linked nodes

A ring is a root node and the nodes met on the way round: `Ring l r xs` says that from `r`
through `next` one visits `xs` and returns to `r`, and that `prev` undoes `next` at every node.
Read through `prev` it is the ring of `xs.reverse` (`Ring.reverse`).

`Rings l roots ring loose` is a family of rings, one for each root, that share no node, together
with some loose nodes that are on none.  The operations of the C idiom, `init`, `addAfter` and
`remove`, move a node between the loose nodes and one ring and leave the other rings as they are.
-/

namespace RTS.Support

/-- The two link fields of each node. -/
structure Links where
  next : Nat → Nat
  prev : Nat → Nat

namespace Links

/-- A one-element ring. -/
def init (l : Links) (e : Nat) : Links :=
  { next := Function.update l.next e e, prev := Function.update l.prev e e }

/-- Link `e` behind `p`, one store at a time. -/
def addAfter (l : Links) (e p : Nat) : Links :=
  let l := { l with next := Function.update l.next e (l.next p) }
  let l := { l with prev := Function.update l.prev e p }
  let l := { l with next := Function.update l.next p e }
  { l with prev := Function.update l.prev (l.next e) e }

/-- Unlink `e`, one store at a time. -/
def remove (l : Links) (e : Nat) : Links :=
  let l := { l with prev := Function.update l.prev (l.next e) (l.prev e) }
  { l with next := Function.update l.next (l.prev e) (l.next e) }

end Links

/-! ### Arcs and rings -/

/-- From `a` one reaches `b` through `xs`, and back. -/
def Arc (l : Links) : Nat → List Nat → Nat → Prop
  | a, [], b => l.next a = b ∧ l.prev b = a
  | a, x :: xs, b => l.next a = x ∧ l.prev x = a ∧ Arc l x xs b

namespace Arc

variable {l l' : Links} {a b x : Nat} {xs ys : List Nat}

theorem append : Arc l a (xs ++ x :: ys) b ↔ Arc l a xs x ∧ Arc l x ys b := by
  induction xs generalizing a with
  | nil => simp [Arc, and_assoc]
  | cons y xs ih => simp [Arc, ih, and_assoc]

/-- An arc reads `next` at all its nodes but the last and `prev` at all but the first. -/
theorem congr (h : Arc l a xs b) (hn : ∀ y ∈ a :: xs, l'.next y = l.next y)
    (hp : ∀ y ∈ xs ++ [b], l'.prev y = l.prev y) : Arc l' a xs b := by
  induction xs generalizing a with
  | nil => exact ⟨(hn a (by simp)).trans h.1, (hp b (by simp)).trans h.2⟩
  | cons y xs ih =>
      exact ⟨(hn a (by simp)).trans h.1, (hp y (by simp)).trans h.2.1,
        ih h.2.2 (fun z hz => hn z (List.mem_cons_of_mem _ hz))
          fun z hz => hp z (List.mem_cons_of_mem _ hz)⟩

theorem next_first (h : Arc l a xs b) : l.next a = xs.headD b := by
  cases xs with
  | nil => exact h.1
  | cons y xs => exact h.1

theorem unique (h : Arc l a xs b) (h' : Arc l a ys b) (hx : b ∉ xs) (hy : b ∉ ys) : xs = ys := by
  induction xs generalizing a ys with
  | nil =>
      cases ys with
      | nil => rfl
      | cons y ys => exact absurd (h.1.symm.trans h'.1) fun e => hy (by simp [e])
  | cons x xs ih =>
      cases ys with
      | nil => exact absurd (h'.1.symm.trans h.1) fun e => hx (by simp [e])
      | cons y ys =>
          obtain rfl : x = y := h.1.symm.trans h'.1
          rw [ih h.2.2 h'.2.2 (fun m => hx (List.mem_cons_of_mem _ m))
            fun m => hy (List.mem_cons_of_mem _ m)]

theorem reverse (h : Arc l a xs b) : Arc ⟨l.prev, l.next⟩ b xs.reverse a := by
  induction xs generalizing a with
  | nil => exact ⟨h.2, h.1⟩
  | cons y xs ih =>
      rw [List.reverse_cons]
      exact append.mpr ⟨ih h.2.2, h.2.1, h.1⟩

end Arc

/-- The ring of root `r` is `xs`. -/
def Ring (l : Links) (r : Nat) (xs : List Nat) : Prop := Arc l r xs r

namespace Ring

variable {l l' : Links} {r e p : Nat} {xs ys : List Nat}

theorem congr (h : Ring l r xs) (hn : ∀ y ∈ r :: xs, l'.next y = l.next y)
    (hp : ∀ y ∈ r :: xs, l'.prev y = l.prev y) : Ring l' r xs :=
  Arc.congr h hn fun y hy => hp y (by simpa [or_comm] using hy)

theorem reverse (h : Ring l r xs) : Ring ⟨l.prev, l.next⟩ r xs.reverse := Arc.reverse h

theorem init (l : Links) (r : Nat) : Ring (l.init r) r [] :=
  ⟨Function.update_self .., Function.update_self ..⟩

/-- Any node of a ring may be taken as its root. -/
theorem rotate : Ring l r (xs ++ p :: ys) ↔ Ring l p (ys ++ r :: xs) := by
  unfold Ring
  rw [Arc.append, Arc.append, and_comm]

theorem next_at (h : Ring l r (xs ++ ys)) : l.next (xs.getLastD r) = ys.headD r := by
  rcases List.eq_nil_or_concat' xs with rfl | ⟨us, u, rfl⟩
  · exact h.next_first
  · have h' : Ring l r (us ++ u :: ys) := by simpa using h
    simpa using (Arc.append.mp h').2.next_first

theorem prev_at (h : Ring l r (xs ++ ys)) : l.prev (ys.headD r) = xs.getLastD r := by
  have h' : Ring ⟨l.prev, l.next⟩ r (ys.reverse ++ xs.reverse) := by simpa using h.reverse
  simpa [List.getLastD_eq_getLast?, List.headD_eq_head?_getD] using h'.next_at

theorem next_mem (h : Ring l r (xs ++ e :: ys)) : l.next e = ys.headD r := by
  have h' : Ring l r ((xs ++ [e]) ++ ys) := by simpa using h
  simpa using h'.next_at

/-- Linking a loose node behind the root. -/
theorem addAfter_root (h : Ring l p xs) (hd : (p :: xs).Nodup) (he : e ∉ p :: xs) :
    Ring (l.addAfter e p) p (e :: xs) := by
  have hep : e ≠ p := fun h => he (by simp [h])
  cases xs with
  | nil =>
      have h₁ : l.next p = p := h.1
      refine ⟨?_, ?_, ?_, ?_⟩ <;>
        simp [Links.addAfter, h₁, hep]
  | cons x xs =>
      have h₁ : l.next p = x := h.1
      have hex : e ≠ x := fun h => he (by simp [h])
      have hpx : p ≠ x := fun h => (List.nodup_cons.mp hd).1 (by simp [h])
      refine ⟨?_, ?_, ?_, ?_, h.2.2.congr (fun y hy => ?_) fun y hy => ?_⟩
      · simp [Links.addAfter]
      · simp [Links.addAfter, h₁, hep, hex]
      · simp [Links.addAfter, h₁, hep]
      · simp [Links.addAfter, h₁, hep]
      · have hye : y ≠ e := by rintro rfl; exact he (List.mem_cons_of_mem _ hy)
        have hyp : y ≠ p := by rintro rfl; exact (List.nodup_cons.mp hd).1 hy
        simp [Links.addAfter, Function.update_apply, hye, hyp]
      · have hye : y ≠ e := by
          rintro rfl
          exact he (by simp at hy ⊢; tauto)
        have hyx : y ≠ x := by
          rintro rfl
          rcases List.mem_append.mp hy with hy | hy
          · exact (List.nodup_cons.mp (List.nodup_cons.mp hd).2).1 hy
          · exact hpx (List.mem_singleton.mp hy).symm
        simp [Links.addAfter, h₁, hep, hye, hyx]

/-- Unlinking the node behind the root. -/
theorem remove_root (h : Ring l p (e :: xs)) (hd : (p :: e :: xs).Nodup) :
    Ring (l.remove e) p xs := by
  have h₂ : l.prev e = p := h.2.1
  have hpe : p ≠ e := fun h => (List.nodup_cons.mp hd).1 (by simp [h])
  cases xs with
  | nil =>
      have h₁ : l.next e = p := h.2.2.1
      refine ⟨?_, ?_⟩ <;> simp [Links.remove, h₁, h₂, hpe.symm]
  | cons x xs =>
      have h₁ : l.next e = x := h.2.2.1
      have hpx : p ≠ x := fun h => (List.nodup_cons.mp hd).1 (by simp [h])
      have hxe : x ≠ e := fun h => by simp [h] at hd
      refine ⟨?_, ?_, h.2.2.2.2.congr (fun y hy => ?_) fun y hy => ?_⟩
      · simp [Links.remove, h₁, h₂, hxe.symm]
      · simp [Links.remove, h₁, h₂]
      · have hyp : y ≠ p := by
          rintro rfl; exact (List.nodup_cons.mp hd).1 (List.mem_cons_of_mem _ hy)
        simp [Links.remove, h₁, h₂, hxe.symm, hyp]
      · have hyx : y ≠ x := by
          rintro rfl
          rcases List.mem_append.mp hy with hy | hy
          · simp [hy] at hd
          · exact hpx (List.mem_singleton.mp hy).symm
        simp [Links.remove, h₁, h₂, Function.update_apply, hyx]

/-- Linking a loose node into a ring, behind `xs`. -/
theorem addAfter (h : Ring l r (xs ++ ys)) (hd : (r :: (xs ++ ys)).Nodup)
    (he : e ∉ r :: (xs ++ ys)) : Ring (l.addAfter e (xs.getLastD r)) r (xs ++ e :: ys) := by
  rcases List.eq_nil_or_concat' xs with rfl | ⟨us, u, rfl⟩
  · exact h.addAfter_root hd he
  · have h' : Ring l u (ys ++ r :: us) := rotate.mp (by simpa using h)
    have hp : List.Perm (u :: (ys ++ r :: us)) (r :: ((us ++ [u]) ++ ys)) := by
      have h₁ : List.Perm (u :: (ys ++ r :: us)) (r :: u :: (ys ++ us)) :=
        ((List.perm_middle).cons u).trans (.swap _ _ _)
      have h₂ : List.Perm (u :: (ys ++ us)) ((us ++ [u]) ++ ys) := by
        simpa using ((@List.perm_append_comm _ ys us).cons u).trans
          List.perm_middle.symm
      exact h₁.trans (h₂.cons r)
    have := h'.addAfter_root (hp.nodup_iff.mpr hd) fun hm => he (hp.mem_iff.mp hm)
    have hr : Ring (l.addAfter e u) r (us ++ u :: e :: ys) := rotate.mpr (by simpa using this)
    simpa using hr

/-- Unlinking a node of a ring. -/
theorem remove (h : Ring l r (xs ++ e :: ys)) (hd : (r :: (xs ++ e :: ys)).Nodup) :
    Ring (l.remove e) r (xs ++ ys) := by
  rcases List.eq_nil_or_concat' xs with rfl | ⟨us, u, rfl⟩
  · exact h.remove_root hd
  · have h' : Ring l u (e :: (ys ++ r :: us)) := by
      have : Ring l r (us ++ u :: (e :: ys)) := by simpa using h
      simpa using rotate.mp this
    have hp : List.Perm (u :: e :: (ys ++ r :: us)) (r :: ((us ++ [u]) ++ e :: ys)) := by
      have h₁ : List.Perm (u :: e :: (ys ++ r :: us)) (r :: u :: e :: (ys ++ us)) := by
        have := @List.perm_middle _ r (u :: e :: ys) us
        simpa using this
      have h₂ : List.Perm (u :: e :: (ys ++ us)) ((us ++ [u]) ++ e :: ys) := by
        have := @List.perm_append_comm _ (u :: e :: ys) us
        simpa using this
      exact h₁.trans (h₂.cons r)
    have hr := rotate.mpr (h'.remove_root (hp.nodup_iff.mpr hd))
    simpa using hr

/-- Linking `e` behind `p` writes only `e`, `p` and the node behind `p`. -/
theorem addAfter_frame (l : Links) {e p y : Nat} (he : y ≠ e) (hp : y ≠ p) (hn : y ≠ l.next p)
    (hep : e ≠ p) : (l.addAfter e p).next y = l.next y ∧ (l.addAfter e p).prev y = l.prev y := by
  simp [Links.addAfter, he, hp, hn, hep]

/-- Unlinking `e` writes only its two neighbours. -/
theorem remove_frame (l : Links) {e y : Nat} (hn : y ≠ l.next e) (hp : y ≠ l.prev e)
    (hne : l.next e ≠ e) : (l.remove e).next y = l.next y ∧ (l.remove e).prev y = l.prev y := by
  simp [Links.remove, hn, hp, hne.symm]

end Ring

/-! ### Families of rings -/

/-- The rings of `roots` share no node with one another or with the nodes `loose`. -/
structure Rings (l : Links) (roots : List Nat) (ring : Nat → List Nat) (loose : List Nat) :
    Prop where
  closed : ∀ r ∈ roots, Ring l r (ring r)
  nodup : ∀ r ∈ roots, (r :: ring r).Nodup
  apart : ∀ r ∈ roots, ∀ r' ∈ roots, r ≠ r' → List.Disjoint (r :: ring r) (r' :: ring r')
  spare : ∀ r ∈ roots, List.Disjoint (r :: ring r) loose
  loose_nodup : loose.Nodup

namespace Rings

variable {l : Links} {roots : List Nat} {ring : Nat → List Nat} {loose xs ys : List Nat}
  {r e : Nat}

theorem roots_congr (h : Rings l roots ring loose) {roots' : List Nat}
    (e : ∀ r, r ∈ roots' → r ∈ roots) : Rings l roots' ring loose where
  closed r hr := h.closed r (e r hr)
  nodup r hr := h.nodup r (e r hr)
  apart r hr r' hr' := h.apart r (e r hr) r' (e r' hr')
  spare r hr := h.spare r (e r hr)
  loose_nodup := h.loose_nodup

theorem getLastD_mem (xs ys : List Nat) (r : Nat) : xs.getLastD r ∈ r :: (xs ++ ys) := by
  rcases List.eq_nil_or_concat' xs with rfl | ⟨us, u, rfl⟩ <;> simp

theorem headD_mem (xs ys : List Nat) (r : Nat) : ys.headD r ∈ r :: (xs ++ ys) := by
  cases ys <;> simp

/-- A loose node is linked into one ring; the other rings keep their nodes and links. -/
theorem addAfter (h : Rings l roots ring (e :: loose)) (hr : r ∈ roots)
    (hs : ring r = xs ++ ys) :
    Rings (l.addAfter e (xs.getLastD r)) roots (Function.update ring r (xs ++ e :: ys)) loose := by
  have hring := h.closed r hr
  have hnd := h.nodup r hr
  have hloose : ∀ q ∈ roots, e ∉ q :: ring q := fun q hq hm => h.spare q hq hm (by simp)
  have hmem : ∀ y, y ∈ xs ++ e :: ys ↔ y = e ∨ y ∈ ring r := by
    intro y; rw [hs]; simp; tauto
  have hle := List.nodup_cons.mp h.loose_nodup
  -- the nodes of ring `q` after the step: those before it, and `e` for the ring of `r`
  have hmem' : ∀ q y, y ∈ q :: Function.update ring r (xs ++ e :: ys) q →
      y ∈ q :: ring q ∨ (q = r ∧ y = e) := by
    intro q y hy
    by_cases hq : q = r
    · subst hq
      rw [Function.update_self] at hy
      rcases List.mem_cons.mp hy with rfl | hy
      · simp
      · rcases (hmem y).mp hy with rfl | hy
        · exact .inr ⟨rfl, rfl⟩
        · exact .inl (by simp [hy])
    · rw [Function.update_of_ne hq] at hy
      exact .inl hy
  refine ⟨fun q hq => ?_, fun q hq => ?_, fun q hq q' hq' hne y hy hy' => ?_,
    fun q hq y hy hy' => ?_, hle.2⟩
  · by_cases hqr : q = r
    · subst hqr
      rw [Function.update_self]
      rw [hs] at hring hnd
      exact hring.addAfter hnd (hs ▸ hloose q hq)
    · rw [Function.update_of_ne hqr]
      have hf : ∀ y ∈ q :: ring q, (l.addAfter e (xs.getLastD r)).next y = l.next y ∧
          (l.addAfter e (xs.getLastD r)).prev y = l.prev y := by
        intro y hy
        have hd := h.apart q hq r hr hqr
        have hp : xs.getLastD r ∈ r :: ring r := hs ▸ getLastD_mem xs ys r
        have hn : l.next (xs.getLastD r) ∈ r :: ring r := by
          rw [(hs ▸ hring : Ring l r (xs ++ ys)).next_at]; exact hs ▸ headD_mem xs ys r
        exact Ring.addAfter_frame l (fun e => hloose q hq (e ▸ hy)) (fun e => hd hy (e ▸ hp))
          (fun e => hd hy (e ▸ hn)) fun e => hloose r hr (e ▸ hp)
      exact (h.closed q hq).congr (fun y hy => (hf y hy).1) fun y hy => (hf y hy).2
  · by_cases hqr : q = r
    · subst hqr
      rw [Function.update_self]
      have hp : List.Perm (q :: (xs ++ e :: ys)) (e :: q :: ring q) := by
        rw [hs]
        exact ((List.perm_middle).cons q).trans (.swap _ _ _)
      exact hp.nodup_iff.mpr (List.nodup_cons.mpr ⟨hloose q hq, hnd⟩)
    · rw [Function.update_of_ne hqr]
      exact h.nodup q hq
  · rcases hmem' q y hy with hin | ⟨rfl, rfl⟩
    · rcases hmem' q' y hy' with hin' | ⟨rfl, rfl⟩
      · exact h.apart q hq q' hq' hne hin hin'
      · exact hloose q hq hin
    · rcases hmem' q' y hy' with hin' | ⟨rfl, -⟩
      · exact hloose q' hq' hin'
      · exact hne rfl
  · rcases hmem' q y hy with hy | ⟨-, rfl⟩
    · exact h.spare q hq hy (List.mem_cons_of_mem _ hy')
    · exact hle.1 hy'

/-- A node of one ring becomes loose; the other rings keep their nodes and links. -/
theorem remove (h : Rings l roots ring loose) (hr : r ∈ roots) (hs : ring r = xs ++ e :: ys) :
    Rings (l.remove e) roots (Function.update ring r (xs ++ ys)) (e :: loose) := by
  have hring : Ring l r (xs ++ e :: ys) := hs ▸ h.closed r hr
  have hnd : (r :: (xs ++ e :: ys)).Nodup := hs ▸ h.nodup r hr
  have he : e ∈ r :: ring r := by simp [hs]
  have hsub : ∀ y ∈ xs ++ ys, y ∈ ring r := by
    intro y hy; rw [hs]; simp at hy ⊢; tauto
  have hperm : List.Perm (r :: (xs ++ e :: ys)) (e :: r :: (xs ++ ys)) :=
    ((List.perm_middle).cons r).trans (.swap _ _ _)
  have hnd' := List.nodup_cons.mp (hperm.nodup_iff.mp hnd)
  have hmem' : ∀ q y, y ∈ q :: Function.update ring r (xs ++ ys) q → y ∈ q :: ring q := by
    intro q y hy
    by_cases hq : q = r
    · subst hq
      rw [Function.update_self] at hy
      rcases List.mem_cons.mp hy with rfl | hy
      · simp
      · exact List.mem_cons_of_mem _ (hsub y hy)
    · rwa [Function.update_of_ne hq] at hy
  refine ⟨fun q hq => ?_, fun q hq => ?_, fun q hq q' hq' hne y hy hy' => ?_,
    fun q hq y hy hy' => ?_, ?_⟩
  · by_cases hqr : q = r
    · subst hqr
      rw [Function.update_self]
      exact hring.remove hnd
    · rw [Function.update_of_ne hqr]
      have hd := h.apart q hq r hr hqr
      have hn : l.next e ∈ r :: (xs ++ ys) := by
        rw [hring.next_mem]; exact headD_mem xs ys r
      have hp : l.prev e ∈ r :: (xs ++ ys) := by
        have := hring.prev_at
        rw [List.headD_cons] at this
        rw [this]; exact getLastD_mem xs ys r
      have hin : ∀ y ∈ r :: (xs ++ ys), y ∈ r :: ring r := by
        intro y hy
        rcases List.mem_cons.mp hy with rfl | hy
        · simp
        · exact List.mem_cons_of_mem _ (hsub y hy)
      have hf : ∀ y ∈ q :: ring q, (l.remove e).next y = l.next y ∧
          (l.remove e).prev y = l.prev y := fun y hy =>
        Ring.remove_frame l (fun e => hd hy (e ▸ hin _ hn)) (fun e => hd hy (e ▸ hin _ hp))
          fun e => hnd'.1 (e ▸ hn)
      exact (h.closed q hq).congr (fun y hy => (hf y hy).1) fun y hy => (hf y hy).2
  · by_cases hqr : q = r
    · subst hqr
      rw [Function.update_self]
      exact hnd'.2
    · rw [Function.update_of_ne hqr]
      exact h.nodup q hq
  · exact h.apart q hq q' hq' hne (hmem' q y hy) (hmem' q' y hy')
  · rcases List.mem_cons.mp hy' with rfl | hy'
    · by_cases hqr : q = r
      · subst hqr
        rw [Function.update_self] at hy
        exact hnd'.1 hy
      · exact h.apart q hq r hr hqr (hmem' q y hy) he
    · exact h.spare q hq (hmem' q y hy) hy'
  · exact List.nodup_cons.mpr ⟨fun hm => h.spare r hr he hm, h.loose_nodup⟩

/-- Initialising a node that is on no ring leaves every ring as it is. -/
theorem init_frame (h : Rings l roots ring loose) {x : Nat} (hx : ∀ q ∈ roots, x ∉ q :: ring q) :
    ∀ q ∈ roots, Ring (l.init x) q (ring q) := by
  intro q hq
  have hne : ∀ y ∈ q :: ring q, y ≠ x := by rintro y hy rfl; exact hx q hq hy
  exact (h.closed q hq).congr (fun y hy => Function.update_of_ne (hne y hy) _ _)
    fun y hy => Function.update_of_ne (hne y hy) _ _

/-- A fresh node becomes the root of an empty ring. -/
theorem init_root (h : Rings l roots ring loose) (hx : ∀ q ∈ roots, r ∉ q :: ring q)
    (hl : r ∉ loose) : Rings (l.init r) (r :: roots) (Function.update ring r []) loose := by
  have hne : ∀ q ∈ roots, q ≠ r := by rintro q hq rfl; exact hx q hq (by simp)
  refine ⟨fun q hq => ?_, fun q hq => ?_, fun q hq q' hq' hqq => ?_, fun q hq => ?_,
    h.loose_nodup⟩
  · rcases List.mem_cons.mp hq with rfl | hq
    · rw [Function.update_self]
      exact Ring.init l q
    · rw [Function.update_of_ne (hne q hq)]
      exact h.init_frame hx q hq
  · rcases List.mem_cons.mp hq with rfl | hq
    · simp
    · rw [Function.update_of_ne (hne q hq)]
      exact h.nodup q hq
  · rcases List.mem_cons.mp hq with rfl | hin <;> rcases List.mem_cons.mp hq' with rfl | hin'
    · exact absurd rfl hqq
    · rw [Function.update_self, Function.update_of_ne (hne q' hin')]
      simpa [List.disjoint_left] using hx q' hin'
    · rw [Function.update_self, Function.update_of_ne (hne q hin)]
      intro y hy hy'
      exact hx q hin (List.mem_singleton.mp hy' ▸ hy)
    · rw [Function.update_of_ne (hne q hin), Function.update_of_ne (hne q' hin')]
      exact h.apart q hin q' hin' hqq
  · rcases List.mem_cons.mp hq with rfl | hq
    · rw [Function.update_self]
      simpa [List.disjoint_left] using hl
    · rw [Function.update_of_ne (hne q hq)]
      exact h.spare q hq

/-- A fresh node becomes loose. -/
theorem init_loose (h : Rings l roots ring loose) (hx : ∀ q ∈ roots, e ∉ q :: ring q)
    (hl : e ∉ loose) : Rings (l.init e) roots ring (e :: loose) where
  closed := h.init_frame hx
  nodup := h.nodup
  apart := h.apart
  spare q hq y hy hy' := by
    rcases List.mem_cons.mp hy' with rfl | hy'
    · exact hx q hq hy
    · exact h.spare q hq hy hy'
  loose_nodup := List.nodup_cons.mpr ⟨hl, h.loose_nodup⟩

end Rings

end RTS.Support

import RealTimeSystem.Support.Pool
import RealTimeSystem.Support.Ring
import RealTimeSystem.Support.Wp

/-!
# Support — two runs side by side

`Both x x' s s' Q` says that `x` from `s` and `x'` from `s'` do the same thing: they return one
value, in states that `Q` relates to it, or they stop for one reason.  The rules are one for each
way a program is built; after `get` the two programs go on with states of their own.

Two memories that agree on some nodes only may be used by the same program, as long as it never
leaves these nodes.  `Pool.Agree` and `Links.Agree` say that they agree, and for a pool that its
lists stay inside.
-/

namespace RTS.Support

variable {ε σ α β : Type}

/-- `x` and `x'` return one value, with `Q`, or stop for one reason. -/
def Both (x x' : EStateM ε σ α) (s s' : σ) (Q : α → σ → σ → Prop) : Prop :=
  match x s, x' s' with
  | .ok a t, .ok a' t' => a' = a ∧ Q a t t'
  | .error e _, .error e' _ => e' = e
  | _, _ => False

namespace Both

variable {x x' : EStateM ε σ α} {s s' : σ} {Q Q' : α → σ → σ → Prop}

theorem mono (h : Both x x' s s' Q) (hQ : ∀ a t t', Q a t t' → Q' a t t') :
    Both x x' s s' Q' := by
  unfold Both at *
  cases hx : x s <;> cases hx' : x' s' <;> rw [hx, hx'] at h
  · exact ⟨h.1, hQ _ _ _ h.2⟩
  · exact h
  · exact h
  · exact h

/-- What is known of the ends includes the two runs. -/
theorem with_eq (h : Both x x' s s' Q) :
    Both x x' s s' fun a t t' => x s = .ok a t ∧ x' s' = .ok a t' ∧ Q a t t' := by
  unfold Both at *
  cases hx : x s <;> cases hx' : x' s' <;> rw [hx, hx'] at h
  · obtain ⟨rfl, h⟩ := h
    exact ⟨rfl, rfl, rfl, h⟩
  · exact h
  · exact h
  · exact h

/-- Where the one returns, the other returns the same. -/
theorem of_ok (h : Both x x' s s' Q) {a : α} {t : σ} (hx : x s = .ok a t) :
    ∃ t', x' s' = .ok a t' ∧ Q a t t' := by
  unfold Both at h
  rw [hx] at h
  cases hx' : x' s' <;> rw [hx'] at h
  · obtain ⟨rfl, h⟩ := h
    exact ⟨_, rfl, h⟩
  · exact h.elim

theorem pure {a : α} (h : Q a s s') : Both (pure a) (pure a : EStateM ε σ α) s s' Q := ⟨rfl, h⟩

theorem throw {e : ε} : Both (throw e) (throw e : EStateM ε σ α) s s' Q := rfl

theorem bind {f f' : α → EStateM ε σ β} {P : β → σ → σ → Prop}
    (h : Both x x' s s' fun a t t' => Both (f a) (f' a) t t' P) :
    Both (x >>= f) (x' >>= f') s s' P := by
  show (match EStateM.bind x f s, EStateM.bind x' f' s' with
    | .ok a t, .ok a' t' => a' = a ∧ P a t t'
    | .error e _, .error e' _ => e' = e
    | _, _ => False)
  unfold Both at h
  unfold EStateM.bind
  cases hx : x s <;> cases hx' : x' s' <;> rw [hx, hx'] at h
  · obtain ⟨rfl, h⟩ := h
    exact h
  · exact h.elim
  · exact h.elim
  · exact h

theorem map {f : α → β} {P : β → σ → σ → Prop} (h : Both x x' s s' fun a => P (f a)) :
    Both (f <$> x) (f <$> x') s s' P := by
  show (match EStateM.map f x s, EStateM.map f x' s' with
    | .ok a t, .ok a' t' => a' = a ∧ P a t t'
    | .error e _, .error e' _ => e' = e
    | _, _ => False)
  unfold Both at h
  unfold EStateM.map
  cases hx : x s <;> cases hx' : x' s' <;> rw [hx, hx'] at h
  · exact ⟨congrArg f h.1, h.2⟩
  · exact h.elim
  · exact h.elim
  · exact h

theorem get {f f' : σ → EStateM ε σ β} {P : β → σ → σ → Prop} (h : Both (f s) (f' s') s s' P) :
    Both (MonadState.get >>= f) (MonadState.get >>= f') s s' P := h

theorem modify {f f' : σ → σ} {P : PUnit → σ → σ → Prop} (h : P ⟨⟩ (f s) (f' s')) :
    Both (modify f) (modify f' : EStateM ε σ PUnit) s s' P := ⟨rfl, h⟩

theorem modifyGet {f f' : σ → α × σ} (e : (f' s').1 = (f s).1) (h : Q (f s).1 (f s).2 (f' s').2) :
    Both (modifyGet f) (modifyGet f' : EStateM ε σ α) s s' Q := ⟨e, h⟩

/-- The two runs take the same branch. -/
theorem ite {c c' : Prop} [Decidable c] [Decidable c'] {y y' : EStateM ε σ α} (hc : c' ↔ c)
    (ht : c → Both x x' s s' Q) (hf : ¬ c → Both y y' s s' Q) :
    Both (if c then x else y) (if c' then x' else y') s s' Q := by
  by_cases h : c
  · rw [if_pos h, if_pos (hc.mpr h)]
    exact ht h
  · rw [if_neg h, if_neg fun h' => h (hc.mp h')]
    exact hf h

/-- Two programs that do what a third one does, do the same. -/
theorem trans {y : EStateM ε σ α} {u : σ} (h : Both x x' s s' Q) (h' : Both x y s u Q') :
    Both x' y s' u fun a t' v => ∃ t, Q a t t' ∧ Q' a t v := by
  unfold Both at *
  cases hx : x s <;> cases hx' : x' s' <;> cases hy : y u <;> rw [hx, hx'] at h <;>
    rw [hx, hy] at h'
  · obtain ⟨rfl, h⟩ := h
    obtain ⟨rfl, h'⟩ := h'
    exact ⟨rfl, _, h, h'⟩
  · exact h'.elim
  · exact h.elim
  · exact h.elim
  · exact h.elim
  · exact h.elim
  · exact h'.elim
  · exact h'.trans h.symm

end Both

/-! ### Results that may be missing -/

section
variable {γ δ : Type} {P : α → α → Prop} {o o' : Option α}

theorem rel_mono {P' : α → α → Prop} (h : Option.Rel P o o') (hP : ∀ a a', P a a' → P' a a') :
    Option.Rel P' o o' := by
  cases h with
  | none => exact .none
  | some h => exact .some (hP _ _ h)

theorem rel_map {P' : γ → γ → Prop} {f f' : α → γ} (h : Option.Rel P o o')
    (hf : ∀ a a', P a a' → P' (f a) (f' a')) : Option.Rel P' (o.map f) (o'.map f') := by
  cases h with
  | none => exact .none
  | some h => exact .some (hf _ _ h)

theorem rel_bind {P' : γ → γ → Prop} {f f' : α → Option γ} (h : Option.Rel P o o')
    (hf : ∀ a a', P a a' → Option.Rel P' (f a) (f' a')) : Option.Rel P' (o.bind f) (o'.bind f') := by
  cases h with
  | none => exact .none
  | some h => exact hf _ _ h

end

/-! ### Pools that agree -/

/-- The cursor points at the root or at the link of a node in `C`. -/
def Link.In (C : List Nat) : Link → Prop
  | .root => True
  | .after x => x ∈ C

/-- The pools are the same on `C`, and their lists do not leave it. -/
structure Pool.Agree (C : List Nat) (p p' : Pool) : Prop where
  list : p'.list_ptr = p.list_ptr
  free : p'.free_ptr = p.free_ptr
  next : ∀ x ∈ C, p'.next_ptr x = p.next_ptr x
  list_mem : p.list_ptr ≠ 0 → p.list_ptr ∈ C
  free_mem : p.free_ptr ≠ 0 → p.free_ptr ∈ C
  next_mem : ∀ x ∈ C, p.next_ptr x ≠ 0 → p.next_ptr x ∈ C

namespace Pool.Agree

variable {C : List Nat} {p p' : Pool} {c : Link} {x v : Nat} {test test' : Nat → Bool}

theorem deref (h : p.Agree C p') (hc : c.In C) : p'.deref c = p.deref c := by
  cases c with
  | root => exact h.list
  | after x => exact h.next x hc

theorem deref_mem (h : p.Agree C p') (hc : c.In C) (h₀ : p.deref c ≠ 0) : p.deref c ∈ C := by
  cases c with
  | root => exact h.list_mem h₀
  | after x => exact h.next_mem x hc h₀

/-- The two walks find the same. -/
theorem find (h : p.Agree C p') (ht : ∀ x ∈ C, test' x = test x) {n : Nat} (hx : x ≠ 0 → x ∈ C) :
    p'.find test' n x = p.find test n x := by
  induction n generalizing x with
  | zero => rfl
  | succ n ih =>
      unfold Pool.find
      by_cases h₀ : x = 0
      · rw [if_pos h₀, if_pos h₀]
      · rw [if_neg h₀, if_neg h₀, ht x (hx h₀), h.next x (hx h₀), ih (h.next_mem x (hx h₀))]

theorem find_mem (h : p.Agree C p') {n y : Nat} (hx : x ≠ 0 → x ∈ C)
    (hf : p.find test n x = some y) (hy : y ≠ 0) : y ∈ C := by
  induction n generalizing x with
  | zero => cases hf
  | succ n ih =>
      unfold Pool.find at hf
      split_ifs at hf with h₀ ht
      · cases hf
        exact absurd rfl hy
      · cases hf
        exact hx h₀
      · exact ih (h.next_mem x (hx h₀)) hf

theorem chain_mem (h : p.Agree C p') {xs : List Nat} (hx : x ≠ 0 → x ∈ C)
    (hc : Chain p.next_ptr x xs) : ∀ y ∈ xs, y ∈ C := by
  induction xs generalizing x with
  | nil => exact fun y hy => absurd hy List.not_mem_nil
  | cons y ys ih =>
      obtain ⟨rfl, h₀, hc⟩ := hc
      intro z hz
      rcases List.mem_cons.mp hz with rfl | hz
      · exact hx h₀
      · exact ih (h.next_mem x (hx h₀)) hc z hz

/-- The two lists are the same. -/
theorem chain_iff (h : p.Agree C p') {xs : List Nat} (hx : x ≠ 0 → x ∈ C) :
    Chain p'.next_ptr x xs ↔ Chain p.next_ptr x xs := by
  induction xs generalizing x with
  | nil => exact Iff.rfl
  | cons y ys ih =>
      by_cases h₀ : x = 0
      · subst h₀
        exact ⟨fun hc => absurd hc.1.symm hc.2.1, fun hc => absurd hc.1.symm hc.2.1⟩
      · have hn := h.next x (hx h₀)
        constructor
        · rintro ⟨rfl, hy, hc⟩
          rw [hn] at hc
          exact ⟨rfl, hy, (ih (h.next_mem x (hx h₀))).mp hc⟩
        · rintro ⟨rfl, hy, hc⟩
          refine ⟨rfl, hy, ?_⟩
          rw [hn]
          exact (ih (h.next_mem x (hx h₀))).mpr hc

theorem seek (h : p.Agree C p') (ht : ∀ x ∈ C, test' x = test x) {n : Nat} (hc : c.In C) :
    p'.seek test' n c = p.seek test n c := by
  induction n generalizing c with
  | zero => rfl
  | succ n ih =>
      unfold Pool.seek
      rw [h.deref hc]
      by_cases h₀ : p.deref c = 0
      · rw [if_pos h₀, if_pos h₀]
      · have hm := h.deref_mem hc h₀
        rw [if_neg h₀, if_neg h₀, ht _ hm, ih (c := .after (p.deref c)) hm]

theorem seek_in (h : p.Agree C p') {n : Nat} {d : Link} (hc : c.In C)
    (hs : p.seek test n c = some d) : d.In C := by
  induction n generalizing c with
  | zero => cases hs
  | succ n ih =>
      unfold Pool.seek at hs
      split_ifs at hs with h₀ ht
      · cases hs
        exact hc
      · cases hs
        exact hc
      · exact ih (c := .after (p.deref c)) (h.deref_mem hc h₀) hs

theorem setNext (h : p.Agree C p') (hv : v ≠ 0 → v ∈ C) :
    (p.setNext x v).Agree C (p'.setNext x v) where
  list := h.list
  free := h.free
  next y hy := by
    simp only [Pool.setNext, Function.update_apply]
    rw [h.next y hy]
  list_mem := h.list_mem
  free_mem := h.free_mem
  next_mem y hy := by
    simp only [Pool.setNext, Function.update_apply]
    split_ifs
    · exact hv
    · exact h.next_mem y hy

theorem store (h : p.Agree C p') (hv : v ≠ 0 → v ∈ C) : (p.store c v).Agree C (p'.store c v) := by
  cases c with
  | root => exact { h with list := rfl, list_mem := hv }
  | after x => exact h.setNext hv

theorem insertAt (h : p.Agree C p') (hc : c.In C) (hx : x ∈ C) :
    (p.insertAt c x).Agree C (p'.insertAt c x) := by
  unfold Pool.insertAt
  rw [h.deref hc]
  exact (h.setNext (h.deref_mem hc)).store fun _ => hx

theorem unlink (h : p.Agree C p') (hx : x ∈ C) : (p.unlink c x).Agree C (p'.unlink c x) := by
  unfold Pool.unlink
  rw [h.next x hx]
  exact h.store (h.next_mem x hx)

theorem pushFree (h : p.Agree C p') (hx : x ∈ C) : (p.pushFree x).Agree C (p'.pushFree x) := by
  unfold Pool.pushFree
  rw [h.free]
  exact { h.setNext (x := x) h.free_mem with free := rfl, free_mem := fun _ => hx }

theorem popFree (h : p.Agree C p') (h₀ : p.free_ptr ≠ 0) : p.popFree.Agree C p'.popFree := by
  unfold Pool.popFree
  have hm := h.free_mem h₀
  rw [h.free, h.next _ hm]
  have hpop : Pool.Agree C { p with free_ptr := p.next_ptr p.free_ptr }
      { p' with free_ptr := p.next_ptr p.free_ptr } :=
    { h with free := rfl, free_mem := h.next_mem _ hm }
  exact hpop.setNext fun h => absurd rfl h

/-- A new node. -/
theorem grow (h : p.Agree C p') (x : Nat) : (p.setNext x 0).Agree (x :: C) (p'.setNext x 0) where
  list := h.list
  free := h.free
  next y hy := by
    simp only [Pool.setNext, Function.update_apply]
    split_ifs with e
    · rfl
    · exact h.next y ((List.mem_cons.mp hy).resolve_left e)
  list_mem h₀ := List.mem_cons_of_mem _ (h.list_mem h₀)
  free_mem h₀ := List.mem_cons_of_mem _ (h.free_mem h₀)
  next_mem y hy := by
    simp only [Pool.setNext, Function.update_apply]
    split_ifs with e
    · exact fun h => absurd rfl h
    · exact fun h₀ => List.mem_cons_of_mem _
        (h.next_mem y ((List.mem_cons.mp hy).resolve_left e) h₀)

end Pool.Agree

/-! ### Links that agree -/

/-- The links are the same at the nodes of `N`. -/
def Links.Agree (N : Nat → Prop) (l l' : Links) : Prop :=
  ∀ x, N x → l'.next x = l.next x ∧ l'.prev x = l.prev x

namespace Links.Agree

variable {N N' : Nat → Prop} {l l' : Links} {e p : Nat}

/-- A new node. -/
theorem init (h : l.Agree N l') (hN : ∀ x, N' x → x = e ∨ N x) :
    (l.init e).Agree N' (l'.init e) := fun x hx => by
  simp only [Links.init, Function.update_apply]
  rcases hN x hx with rfl | hx
  · rw [if_pos rfl, if_pos rfl, if_pos rfl, if_pos rfl]
    exact ⟨rfl, rfl⟩
  · rw [(h x hx).1, (h x hx).2]
    exact ⟨rfl, rfl⟩

theorem addAfter (h : l.Agree N l') (hp : N p) :
    (l.addAfter e p).Agree N (l'.addAfter e p) := fun x hx => by
  simp only [Links.addAfter, Function.update_apply]
  rw [(h x hx).1, (h x hx).2, (h p hp).1]
  exact ⟨rfl, rfl⟩

theorem remove (h : l.Agree N l') (he : N e) : (l.remove e).Agree N (l'.remove e) := fun x hx => by
  simp only [Links.remove, Function.update_apply]
  rw [(h x hx).1, (h x hx).2, (h e he).1, (h e he).2]
  exact ⟨rfl, rfl⟩

end Links.Agree

/-- A root may be initialised again; what was on its ring is on none then. -/
theorem Rings.init_again {l : Links} {roots loose : List Nat} {ring : Nat → List Nat} {r : Nat}
    (h : Rings l roots ring loose) (hr : r ∈ roots) :
    Rings (l.init r) roots (Function.update ring r []) loose where
  closed q hq := by
    by_cases e : q = r
    · subst e
      rw [Function.update_self]
      exact Ring.init l q
    · rw [Function.update_of_ne e]
      have hne : ∀ y ∈ q :: ring q, y ≠ r := fun y hy e' =>
        h.apart q hq r hr e hy (e' ▸ List.mem_cons_self)
      exact (h.closed q hq).congr (fun y hy => Function.update_of_ne (hne y hy) _ _)
        fun y hy => Function.update_of_ne (hne y hy) _ _
  nodup q hq := by
    by_cases e : q = r
    · subst e
      rw [Function.update_self]
      exact List.nodup_singleton q
    · rw [Function.update_of_ne e]
      exact h.nodup q hq
  apart q hq q' hq' hne := by
    have hsub : ∀ z, z :: Function.update ring r [] z ⊆ z :: ring z := fun z => by
      by_cases e : z = r
      · subst e
        rw [Function.update_self]
        exact fun y hy => List.mem_singleton.mp hy ▸ List.mem_cons_self
      · rw [Function.update_of_ne e]
        exact List.Subset.refl _
    exact fun y hy hy' => h.apart q hq q' hq' hne (hsub q hy) (hsub q' hy')
  spare q hq := by
    by_cases e : q = r
    · subst e
      rw [Function.update_self]
      exact fun y hy hy' => h.spare q hq (List.mem_singleton.mp hy ▸ List.mem_cons_self) hy'
    · rw [Function.update_of_ne e]
      exact h.spare q hq
  loose_nodup := h.loose_nodup

end RTS.Support

import RealTimeSystem.Uspace.Shmem

/-!
# RTAPI — System V shared memory

The segments of a machine, where processes `P` have them mapped, and the calls on them.  A segment
has its key until it is marked for removal, and goes when nobody is attached any more.  Identifiers
are not given twice.

A call may fail at any time, without effect; `serve p c a k` is the system after process `p` called
`c` and `a` was the answer, or `none` if it is no answer that the system gives.
-/

namespace RTS.Uspace

/-- A segment, with its key or marked for removal. -/
structure IpcSegment where
  key : Option Int
  deriving DecidableEq

structure Ipc (P : Type) where
  segs : Nat → Option IpcSegment := fun _ => none
  /-- who has what mapped, and where -/
  attached : List ((P × Addr) × Nat) := []
  next : Nat := 0

namespace Ipc

variable {P : Type}

/-! ### The calls -/

/-- The key leads to the segment. -/
def Names (k : Ipc P) (key : Int) (id : Nat) : Prop := k.segs id = some ⟨some key⟩

instance (k : Ipc P) (key : Int) (id : Nat) : Decidable (k.Names key id) :=
  inferInstanceAs (Decidable (_ = _))

def seg (k : Ipc P) (id : Int) : Option IpcSegment := if 0 ≤ id then k.segs id.toNat else none

def nattch (k : Ipc P) (id : Nat) : Nat := k.attached.countP (·.2 = id)

def create (k : Ipc P) (key : Int) : Ipc P :=
  { k with segs := Function.update k.segs k.next (some ⟨some key⟩), next := k.next + 1 }

/-- A segment marked for removal goes with the last that is attached. -/
def reap (k : Ipc P) (id : Nat) : Ipc P :=
  if k.segs id = some ⟨none⟩ ∧ k.nattch id = 0 then
    { k with segs := Function.update k.segs id none }
  else k

def remove (k : Ipc P) (id : Nat) : Ipc P :=
  reap { k with segs := Function.update k.segs id (some ⟨none⟩) } id

section
variable [DecidableEq P]

/-- The segment that is mapped at an address of a process. -/
def mapOf (k : Ipc P) (p : P) (addr : Addr) : Option Nat := k.attached.lookup (p, addr)

def attach (k : Ipc P) (p : P) (addr : Addr) (id : Nat) : Ipc P :=
  { k with attached := ((p, addr), id) :: k.attached }

def detach (k : Ipc P) (p : P) (addr : Addr) (id : Nat) : Ipc P :=
  reap { k with attached := k.attached.filter (·.1 ≠ (p, addr)) } id

def serve (p : P) : (c : Call) → c.Answer → Ipc P → Option (Ipc P)
  | .shmget key _, .ok id, k =>
      if k.Names key id then some k
      else if id = k.next ∧ ∀ i < k.next, ¬ k.Names key i then some (k.create key)
      else none
  | .shmat id, .ok m, k =>
      if k.seg id ≠ none ∧ k.mapOf p m.addr = none then some (k.attach p m.addr id.toNat) else none
  | .shmdt addr, .ok _, k => (k.mapOf p addr).map (k.detach p addr)
  | .shm_stat id, .ok n, k => if k.seg id ≠ none ∧ n = k.nattch id.toNat then some k else none
  | .shm_set id, .ok _, k => if k.seg id ≠ none then some k else none
  | .shm_rmid id, .ok _, k => if k.seg id ≠ none then some (k.remove id.toNat) else none
  | _, _, k => some k

end

/-- The calls that map or unmap. -/
def maps : Call → Bool
  | .shmat _ => true
  | .shmdt _ => true
  | _ => false

/-- The segment that a call marks for removal. -/
def removes : (c : Call) → c.Answer → Option Int
  | .shm_rmid id, .ok _ => some id
  | _, _ => none

/-! ### What they leave -/

/-- Identifiers from `next` on are free, and a key leads to one segment. -/
structure Wf (k : Ipc P) : Prop where
  free : ∀ id, k.next ≤ id → k.segs id = none
  unique : ∀ key id id', k.Names key id → k.Names key id' → id = id'

/-- Not a segment, or one with the key. -/
def Keyed (k : Ipc P) (id : Nat) (key : Int) : Prop :=
  ∀ seg, k.segs id = some seg → seg.key = some key

section
variable {k : Ipc P} {p : P} {addr : Addr} {id : Nat} {key : Int}

theorem reap_segs (k : Ipc P) (id i : Nat) : (k.reap id).segs i = k.segs i ∨
    i = id ∧ k.segs id = some ⟨none⟩ ∧ k.nattch id = 0 ∧ (k.reap id).segs i = none := by
  unfold reap
  split_ifs with h
  · by_cases hi : i = id
    · exact .inr ⟨hi, h.1, h.2, by rw [hi]; exact Function.update_self ..⟩
    · exact .inl (Function.update_of_ne hi _ _)
  · exact .inl rfl

theorem reap_attached (k : Ipc P) (id : Nat) : (k.reap id).attached = k.attached := by
  unfold reap
  split_ifs <;> rfl

theorem reap_next (k : Ipc P) (id : Nat) : (k.reap id).next = k.next := by
  unfold reap
  split_ifs <;> rfl

theorem reap_names (k : Ipc P) (id : Nat) {key : Int} {i : Nat} :
    (k.reap id).Names key i ↔ k.Names key i := by
  unfold Names
  rcases k.reap_segs id i with h | ⟨rfl, h, -, hnone⟩
  · rw [h]
  · rw [hnone, h]
    simp

/-- Removing leaves the other names. -/
theorem remove_names {i : Nat} : (k.remove id).Names key i ↔ k.Names key i ∧ i ≠ id := by
  unfold remove
  rw [reap_names]
  unfold Names
  by_cases hi : i = id
  · simp [hi]
  · simp [hi]

theorem remove_segs_of_ne {i : Nat} (h : i ≠ id) : (k.remove id).segs i = k.segs i := by
  unfold remove
  rcases reap_segs { k with segs := Function.update k.segs id (some ⟨none⟩) } id i with he | ⟨he, -⟩
  · rw [he]
    exact Function.update_of_ne h _ _
  · exact absurd he h

theorem remove_segs_self (h : k.nattch id = 0) : (k.remove id).segs id = none := by
  have hr : Function.update k.segs id (some ⟨none⟩) id = some ⟨none⟩ := Function.update_self ..
  unfold remove reap
  rw [if_pos ⟨hr, h⟩]
  exact Function.update_self ..

theorem remove_next : (k.remove id).next = k.next := reap_next _ _

theorem create_names {i : Nat} {key' : Int} (h : k.Wf) :
    (k.create key).Names key' i ↔ k.Names key' i ∨ i = k.next ∧ key' = key := by
  unfold Names create
  by_cases hi : i = k.next
  · simp [hi, h.free k.next (Nat.le_refl _), eq_comm]
  · simp [hi]

theorem seg_natCast (k : Ipc P) (id : Nat) : k.seg id = k.segs id := by
  simp [seg]

theorem seg_toNat {id : Int} (h : k.seg id ≠ none) :
    id = (id.toNat : Int) ∧ k.segs id.toNat ≠ none := by
  unfold seg at h
  split_ifs at h with h0
  · exact ⟨by omega, h⟩
  · exact absurd rfl h

theorem lookup_filter_ne {A B : Type} [BEq A] [LawfulBEq A] [DecidableEq A] (l : List (A × B))
    {x y : A} (h : y ≠ x) : (l.filter (·.1 ≠ x)).lookup y = l.lookup y := by
  induction l with
  | nil => rfl
  | cons e l ih =>
      obtain ⟨z, b⟩ := e
      by_cases hz : z = x
      · rw [List.filter_cons_of_neg (by simpa using hz), ih, List.lookup_cons,
          beq_false_of_ne (fun e => h (e.trans hz))]
      · rw [List.filter_cons_of_pos (by simpa using hz), List.lookup_cons, List.lookup_cons, ih]

variable [DecidableEq P]

theorem mapOf_nattch (h : k.mapOf p addr = some id) : k.nattch id ≠ 0 := by
  obtain ⟨l₁, l₂, he, -⟩ := List.lookup_eq_some_iff.mp h
  unfold nattch
  rw [he]
  simp

theorem mapOf_attach_self : (k.attach p addr id).mapOf p addr = some id := by
  simp [mapOf, attach]

theorem mapOf_attach_of_ne {q : P} {b : Addr} (h : (q, b) ≠ (p, addr)) :
    (k.attach p addr id).mapOf q b = k.mapOf q b := by
  unfold mapOf attach
  rw [List.lookup_cons, beq_false_of_ne h]

theorem mapOf_detach {q : P} {b : Addr} (h : (q, b) ≠ (p, addr)) :
    (k.detach p addr id).mapOf q b = k.mapOf q b := by
  unfold mapOf detach
  rw [reap_attached]
  exact lookup_filter_ne _ h

theorem mapOf_remove {q : P} {b : Addr} : (k.remove id).mapOf q b = k.mapOf q b := by
  unfold mapOf remove
  rw [reap_attached]

theorem detach_names {i : Nat} : (k.detach p addr id).Names key i ↔ k.Names key i := by
  unfold detach
  rw [reap_names]
  rfl

/-- What an answered call does. -/
theorem serve_cases {k' : Ipc P} {c : Call} {a : c.Answer} (h : serve p c a k = some k') :
    k' = k ∨ (∃ key, (∀ i < k.next, ¬ k.Names key i) ∧ k' = k.create key) ∨
      (∃ addr id, maps c ∧ k' = k.attach p addr id) ∨
      (∃ addr id, maps c ∧ k' = k.detach p addr id) ∨
      ∃ id : Nat, removes c a = some (id : Int) ∧ k.segs id ≠ none ∧ k' = k.remove id := by
  cases c with
  | shmget key size =>
      rcases a with e | id
      · exact .inl (Option.some.inj h).symm
      · simp only [serve] at h
        split_ifs at h with h₁ h₂
        · exact .inl (Option.some.inj h).symm
        · exact .inr (.inl ⟨key, h₂.2, (Option.some.inj h).symm⟩)
  | shm_stat id =>
      rcases a with e | n
      · exact .inl (Option.some.inj h).symm
      · simp only [serve] at h
        split_ifs at h
        exact .inl (Option.some.inj h).symm
  | shm_set id =>
      rcases a with e | n
      · exact .inl (Option.some.inj h).symm
      · simp only [serve] at h
        split_ifs at h
        exact .inl (Option.some.inj h).symm
  | shm_rmid id =>
      rcases a with e | n
      · exact .inl (Option.some.inj h).symm
      · simp only [serve] at h
        split_ifs at h with h₁
        obtain ⟨hid, hseg⟩ := seg_toNat h₁
        exact .inr (.inr (.inr (.inr
          ⟨id.toNat, congrArg some hid, hseg, (Option.some.inj h).symm⟩)))
  | shmat id =>
      rcases a with e | m
      · exact .inl (Option.some.inj h).symm
      · simp only [serve] at h
        split_ifs at h with h₁
        exact .inr (.inr (.inl ⟨m.addr, id.toNat, rfl, (Option.some.inj h).symm⟩))
  | shmdt mem =>
      rcases a with e | n
      · exact .inl (Option.some.inj h).symm
      · obtain ⟨id, -, hk⟩ := Option.map_eq_some_iff.mp h
        exact .inr (.inr (.inr (.inl ⟨mem, id, rfl, hk.symm⟩)))
  | _ => exact .inl (Option.some.inj h).symm

end

/-! ### Calls of others -/

section
variable [DecidableEq P] {k k' : Ipc P} {p q : P} {c : Call} {a : c.Answer} {id : Nat} {key : Int}

theorem detach_segs {addr : Addr} (i : Nat) :
    (k.detach p addr id).segs i = k.segs i ∨ (k.detach p addr id).segs i = none := by
  unfold detach
  rcases reap_segs { k with attached := k.attached.filter (·.1 ≠ (p, addr)) } id i with
    h | ⟨-, -, -, h⟩
  · exact .inl h
  · exact .inr h

theorem detach_next {addr : Addr} : (k.detach p addr id).next = k.next := reap_next _ _

theorem Wf.served (h : k.Wf) (hs : serve p c a k = some k') : k'.Wf := by
  rcases serve_cases hs with rfl | ⟨key, hno, rfl⟩ | ⟨addr, id, -, rfl⟩ | ⟨addr, id, -, rfl⟩ |
    ⟨id, -, hid, rfl⟩
  · exact h
  · refine ⟨fun id hid => ?_, fun key' id id' h₁ h₂ => ?_⟩
    · have hlt : k.next < id := hid
      exact (Function.update_of_ne (by omega) _ _).trans (h.free id (by omega))
    · -- the new segment is the only one of its key
      have hnew : ∀ i, ¬ k.Names key i := fun i hi => by
        by_cases hlt : i < k.next
        · exact hno i hlt hi
        · exact absurd (h.free i (by omega)) (by rw [hi]; exact Option.some_ne_none _)
      rcases (create_names h).mp h₁ with h₁ | ⟨rfl, rfl⟩ <;>
        rcases (create_names h).mp h₂ with h₂ | ⟨rfl, he⟩
      · exact h.unique key' id id' h₁ h₂
      · exact absurd (he ▸ h₁) (hnew id)
      · exact absurd h₂ (hnew id')
      · rfl
  · exact ⟨h.free, h.unique⟩
  · refine ⟨fun i hi => ?_, fun key i i' h₁ h₂ => ?_⟩
    · rw [detach_next] at hi
      exact (detach_segs i).elim (fun he => he.trans (h.free i hi)) fun he => he
    · exact h.unique key i i' (detach_names.mp h₁) (detach_names.mp h₂)
  · refine ⟨fun i hi => ?_, fun key i i' h₁ h₂ => ?_⟩
    · rw [remove_next] at hi
      have hne : i ≠ id := fun e => hid (e ▸ h.free i hi)
      exact (remove_segs_of_ne hne).trans (h.free i hi)
    · exact h.unique key i i' (remove_names.mp h₁).1 (remove_names.mp h₂).1

/-- A name lasts until its segment is removed. -/
theorem Names.served (h : k.Names key id) (hw : k.Wf) (hs : serve p c a k = some k')
    (hr : removes c a ≠ some (id : Int)) : k'.Names key id := by
  rcases serve_cases hs with rfl | ⟨key', -, rfl⟩ | ⟨addr, i, -, rfl⟩ | ⟨addr, i, -, rfl⟩ |
    ⟨i, hi, -, rfl⟩
  · exact h
  · exact (create_names hw).mpr (.inl h)
  · exact h
  · exact detach_names.mpr h
  · refine remove_names.mpr ⟨h, fun he => hr ?_⟩
    rw [hi, he]

theorem next_served (hs : serve p c a k = some k') : k.next ≤ k'.next := by
  rcases serve_cases hs with rfl | ⟨key', -, rfl⟩ | ⟨addr, i, -, rfl⟩ | ⟨addr, i, -, rfl⟩ |
    ⟨i, -, -, rfl⟩
  · exact Nat.le_refl _
  · exact Nat.le_succ _
  · exact Nat.le_refl _
  · exact Nat.le_of_eq detach_next.symm
  · exact Nat.le_of_eq remove_next.symm

/-- An identifier whose segment goes is not that of another segment later. -/
theorem Keyed.served (h : k.Keyed id key) (hlt : id < k.next) (hs : serve p c a k = some k')
    (hr : removes c a = some (id : Int) → k.nattch id = 0) : k'.Keyed id key := by
  intro seg hseg
  rcases serve_cases hs with rfl | ⟨key', -, rfl⟩ | ⟨addr, i, -, rfl⟩ | ⟨addr, i, -, rfl⟩ |
    ⟨i, hi, -, rfl⟩
  · exact h seg hseg
  · rw [show (k.create key').segs id = k.segs id from Function.update_of_ne (by omega) _ _] at hseg
    exact h seg hseg
  · exact h seg hseg
  · have hd : (k.detach p addr i).segs id = k.segs id ∨ _ := detach_segs id
    rcases hd with he | he
    · exact h seg (he ▸ hseg)
    · rw [he] at hseg
      cases hseg
  · by_cases he : id = i
    · subst he
      rw [remove_segs_self (hr hi)] at hseg
      cases hseg
    · rw [remove_segs_of_ne he] at hseg
      exact h seg hseg

theorem mapOf_unmoved (hm : maps c = false) (hs : serve p c a k = some k') (addr : Addr) :
    k'.mapOf q addr = k.mapOf q addr := by
  rcases serve_cases hs with rfl | ⟨key', -, rfl⟩ | ⟨b, i, hc, rfl⟩ | ⟨b, i, hc, rfl⟩ |
    ⟨i, -, -, rfl⟩
  · rfl
  · rfl
  · exact absurd hc (by rw [hm]; decide)
  · exact absurd hc (by rw [hm]; decide)
  · exact mapOf_remove

/-- Another process leaves what a process has mapped. -/
theorem mapOf_served (hq : q ≠ p) (hs : serve p c a k = some k') (addr : Addr) :
    k'.mapOf q addr = k.mapOf q addr := by
  have hne : ∀ b, (q, addr) ≠ (p, b) := fun b e => hq (Prod.mk.inj e).1
  rcases serve_cases hs with rfl | ⟨key', -, rfl⟩ | ⟨b, i, -, rfl⟩ | ⟨b, i, -, rfl⟩ |
    ⟨i, -, -, rfl⟩
  · rfl
  · rfl
  · exact mapOf_attach_of_ne (hne b)
  · exact mapOf_detach (hne b)
  · exact mapOf_remove

end

end Ipc

end RTS.Uspace

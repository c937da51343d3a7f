import RealTimeSystem.Uspace.Sizes
import RealTimeSystem.Uspace.SysV

/-!
# RTAPI — what a failed `rtapi_shmem_new` leaves behind

One call of `rtapi_shmem_new` beside the kernel that answers it.

**When it leaves no trace** (`new_no_trace_iff`).  A call that failed in `shmget` leaves the slot as
it found it, which need not be UNBORN.  A call that failed in `shmat` removes the segment of its key,
whoever made it, and leaves the slot in state ERROR.
-/

namespace RTS.Uspace

open RTS.Support

variable {P : Type} [DecidableEq P] {p : P} {k k' : Ipc P} {s s' : Process}
  {l : List (Asked Process Call Call.Answer)}

/-- The kernel after the questions of process `p` were answered, or `none` if it does not answer
so. -/
def served (p : P) : List (Asked Process Call Call.Answer) → Ipc P → Option (Ipc P)
  | [], k => some k
  | x :: l, k => (served p l k).bind (Ipc.serve p x.call x.answer)

/-- The free slot that the call takes. -/
def takes (s : Process) (key : Int) (size : Nat) : Option Nat :=
  if key = 0 ∨ size = 0 then none
  else
    match scan s.shmem_array key MAX_SHM 0 none with
    | .inl _ => none
    | .inr o => o

/-- The keys lead where they did, and the slot is back in state UNBORN. -/
structure NoTrace (k k' : Ipc P) (s s' : Process) (key : Int) (size : Nat) : Prop where
  names : ∀ key' id, k'.Names key' id ↔ k.Names key' id
  unborn : ∀ i, takes s key size = some i → (s'.shmem_array i).state = .unborn

/-- A `shmget` succeeded. -/
def got : List (Asked Process Call Call.Answer) → Bool
  | [] => false
  | ⟨_, .shmget _ _, .ok _⟩ :: _ => true
  | _ :: l => got l

/-- A `shmat` failed. -/
def unmapped : List (Asked Process Call Call.Answer) → Bool
  | [] => false
  | ⟨_, .shmat _, .error _⟩ :: _ => true
  | _ :: l => unmapped l

/-- If a slot is taken, no `shmat` fails, and `shmget` fails only on a slot that was never used. -/
def Clean (s : Process) (key : Int) (size : Nat) (l : List (Asked Process Call Call.Answer)) :
    Prop :=
  ∀ i, takes s key size = some i →
    unmapped l = false ∧ (got l = true ∨ (s.shmem_array i).state = .unborn)

/-- What taking the slot `i` comes to: `shmget` fails, or `shmat` does, or neither. -/
inductive Taken (i : Nat) (s : Process) (l' : List (Asked Process Call Call.Answer)) (r : Int)
    (s' : Process) : Prop
  | ungot (neg : r < 0) (state : (s'.shmem_array i).state = (s.shmem_array i).state)
      (got : got l' = false) (map : unmapped l' = false)
      (same : ∀ {P : Type} [DecidableEq P] (p : P) (k : Ipc P), served p l' k = some k)
  | unmapped (neg : r < 0) (state : (s'.shmem_array i).state = .error)
      (map : unmapped l' = true)
  | active (pos : 0 ≤ r) (got : got l' = true) (map : Uspace.unmapped l' = false)

theorem unmapped_unmoving (x : Asked Process Call Call.Answer)
    (l : List (Asked Process Call Call.Answer)) (h : Unmoving x) : unmapped (x :: l) = unmapped l := by
  obtain ⟨_, c, _⟩ := x
  cases c <;> first | rfl | exact h.elim

theorem got_failed (x : Asked Process Call Call.Answer)
    (l : List (Asked Process Call Call.Answer)) (h : Failed x) : got (x :: l) = got l := by
  obtain ⟨_, c, a⟩ := x
  cases c <;> try exact h.elim
  cases a with
  | error e => rfl
  | ok id => exact h.elim

theorem got_of_mem {key size : Int} {id : Nat} {q : Process}
    (h : ⟨q, .shmget key size, .ok id⟩ ∈ l) : got l = true := by
  induction l with
  | nil => cases h
  | cons x l ih =>
      rcases List.mem_cons.mp h with rfl | h
      · rfl
      · have hl := ih h
        obtain ⟨_, c, a⟩ := x
        cases c <;> try exact hl
        cases a with
        | error e => exact hl
        | ok id => rfl

theorem served_failed (p : P) (k : Ipc P) (x : Asked Process Call Call.Answer)
    (l : List (Asked Process Call Call.Answer)) (h : Failed x) :
    served p (x :: l) k = served p l k := by
  obtain ⟨_, c, a⟩ := x
  cases c <;> try exact h.elim
  cases a with
  | error e =>
      rw [served]
      exact Option.bind_fun_some _
  | ok id => exact h.elim

theorem shmem_create_taken (i : Nat) (key : Int) (size : Nat) :
    Every (shmem_create i key size) s [] fun l' r s' => Taken i s l' r s' := by
  refine (shmem_create_asks i key size).mono fun l' r s' h => ?_
  cases h with
  | ungot pid e hf =>
      refine .ungot e.neg (by simp) (skip_all got_failed hf) ?_ fun p k => ?_
      · exact skip_all unmapped_unmoving fun x hx => (hf x hx).unmoving
      · exact (skip_all (f := fun l => served p l k) (served_failed p k) hf).trans rfl
  | unmapped pid id e a p q q' hi hg => exact .unmapped e.neg (by simp) rfl
  | active pid id m p q hi hg =>
      refine .active (Int.natCast_nonneg i) (got_of_mem (.tail _ (List.mem_append_left [] hg))) ?_
      exact skip_all unmapped_unmoving hi

/-- No slot is taken, and nothing is asked, or the slot is. -/
theorem rtapi_shmem_new_taken (key module_id : Int) (size : Nat) :
    Every (rtapi_shmem_new key module_id size) s [] fun l' r s' =>
      (takes s key size = none ∧ l' = []) ∨ ∃ i, takes s key size = some i ∧ Taken i s l' r s' := by
  unfold rtapi_shmem_new takes
  refine .ite (fun h => .inl ⟨if_pos (.inl h), rfl⟩) fun hkey => ?_
  refine .ite (fun h => .inl ⟨if_pos (.inr h), rfl⟩) fun hsize => ?_
  have hnot : ¬ (key = 0 ∨ size = 0) := fun h => h.elim hkey hsize
  rw [every_bind, every_get]
  simp only [if_neg hnot]
  rcases scan s.shmem_array key MAX_SHM 0 none with i | _ | i
  · exact .inl ⟨rfl, rfl⟩
  · exact .inl ⟨rfl, rfl⟩
  · exact (shmem_create_taken i key size).mono fun l' r s' h => .inr ⟨i, rfl, h⟩

/-- **A failed `rtapi_shmem_new` leaves no trace exactly if** no `shmat` fails, and `shmget` fails
only for a slot that was never used. -/
theorem new_no_trace_iff {key module_id : Int} {size : Nat} {r : Int}
    (hd : Does (rtapi_shmem_new key module_id size) s l r s') (hk : served p l k = some k') :
    (r < 0 → NoTrace k k' s s' key size) ↔ Clean s key size l := by
  rcases hd.of_every (rtapi_shmem_new_taken key module_id size) with ⟨hnone, rfl⟩ | ⟨i, hi, ht⟩
  · obtain rfl := Option.some.inj hk
    have hno : ∀ i, takes s key size ≠ some i := fun i h => by rw [hnone] at h; cases h
    exact ⟨fun _ i h => absurd h (hno i), fun _ _ => ⟨fun _ _ => .rfl, fun i h => absurd h (hno i)⟩⟩
  have hone : ∀ j, takes s key size = some j → j = i := fun j hj => by
    rw [hi] at hj
    exact (Option.some.inj hj).symm
  cases ht with
  | ungot neg state hg hm same =>
      obtain rfl : k = k' := Option.some.inj ((same p k).symm.trans hk)
      constructor
      · intro h j hj
        rw [hone j hj]
        exact ⟨hm, .inr (state.symm.trans ((h neg).unborn i hi))⟩
      · intro h _
        refine ⟨fun _ _ => .rfl, fun j hj => ?_⟩
        rw [hone j hj, state]
        exact (h i hi).2.resolve_left (by rw [hg]; decide)
  | unmapped neg state hm =>
      constructor
      · intro h
        exact absurd (state.symm.trans ((h neg).unborn i hi)) (by decide)
      · intro h
        exact absurd (hm.symm.trans (h i hi).1) (by decide)
  | active pos hg hm =>
      constructor
      · intro _ j _
        exact ⟨hm, .inl hg⟩
      · exact fun _ hneg => absurd hneg (by omega)

/-- A system without room for a segment. -/
def full_answers (n : Nat) : (c : Call) → c.Answer
  | .shmget _ _ => .error ⟨28, by decide⟩
  | c => plain_answers n c

/-- There is no room for the first segment. -/
theorem new_no_trace_full : ∃ l s', Does (rtapi_shmem_new 5 0 16) {} l (-28) s' ∧
    NoTrace ({} : Ipc Nat) {} {} s' 5 16 := by
  have hd : Does (rtapi_shmem_new 5 0 16) {} _ (-28) _ := ⟨full_answers, rfl, rfl, rfl⟩
  have hclean : Clean {} 5 16 ((rtapi_shmem_new 5 0 16 {}).asked full_answers 0 []) :=
    fun _ _ => ⟨rfl, .inr rfl⟩
  exact ⟨_, _, hd, (new_no_trace_iff (p := 0) hd rfl).mpr hclean (by decide)⟩

/-- Process 1 made the segment 7 and is attached. -/
def others : Ipc Nat where
  segs := Function.update (fun _ => none) 7 (some ⟨some 5⟩)
  attached := [((1, 4096), 7)]
  next := 8

/-- A system where process 0 cannot map the segment 7. -/
def unmapped_answers (n : Nat) : (c : Call) → c.Answer
  | .shm_stat _ => .ok 1
  | .shmat _ => .error ⟨12, enomem_pos⟩
  | c => plain_answers n c

/-- Process 0 fails to map the segment of process 1, and the key leads nowhere afterwards. -/
theorem new_removes_others : ∃ l s' k', Does (rtapi_shmem_new 5 0 16) {} l (-12) s' ∧
    served 0 l others = some k' ∧ others.Names 5 7 ∧ ¬ k'.Names 5 7 ∧
    takes {} 5 16 = some 0 ∧ (s'.shmem_array 0).state = .error :=
  ⟨_, _, _, ⟨unmapped_answers, rfl, rfl, rfl⟩, rfl, by decide, by decide, by decide, rfl⟩

end RTS.Uspace

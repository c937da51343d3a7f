import RealTimeSystem.System.Boot
import RealTimeSystem.Uspace.Keys

/-!
# System — the reference that HAL holds

Nothing in HAL closes the handle of its own segment but `hal_app_exit`.  `hal_init` attaches to the
segment again while `lib_mem_id` is 0, which may be the handle itself; so an operation counts the
handle once more at most.
-/

namespace RTS.Uspace

open RTS.Support RTS.Hal

variable {K : Kernel} {m m' : Machine} {s s' : Process} {i : Nat}
  {l : List (Asked Process Call Call.Answer)}

/-- The handle `i` is of the segment of HAL, and `rtapi_exit` closes another one. -/
structure Process.Guards (s : Process) (i : Nat) : Prop where
  separate : Separate s
  valid : s.Valid i
  key : (s.shmem_array i).key = HAL_KEY
  other : s.uuid_mem_id ≠ i

namespace Process.Guards

theorem foreign (h : s.Guards i) : s.Foreign i := ⟨h.valid, by rw [h.key]; decide⟩

theorem references (h : s.Guards i) : s.references i = some (HAL_KEY, (s.shmem_array i).count) := by
  rw [references_some h.valid, h.key]

theorem of_keyed (hk : Keyed s) (hv : s.Valid i) (hkey : (s.shmem_array i).key = HAL_KEY) :
    s.Guards i :=
  ⟨hk.separate, hv, hkey, fun e => absurd (hk.uuid i e hv) (by rw [hkey]; decide)⟩

/-- The handle itself is as before. -/
theorem of_slot (h : s.Guards i) (hs : Separate s') (hid : s'.uuid_mem_id = s.uuid_mem_id)
    (hslot : s'.shmem_array i = s.shmem_array i) : s'.Guards i :=
  ⟨hs, (valid_slot hslot).mpr h.valid, by rw [hslot]; exact h.key, by rw [hid]; exact h.other⟩

theorem tabled (h : s.Guards i) (ht : Tabled s s') :
    s'.Guards i ∧ s'.shmem_array i = s.shmem_array i :=
  have hslot := congrFun ht.shmem i
  ⟨h.of_slot (h.separate.of_table ht.shmem) ht.mem_id hslot, hslot⟩

/-- The calls of RTAPI leave the handle. -/
theorem step (h : m.process.Guards i) (hs : (rtapi K).Step m m') :
    m'.process.Guards i ∧ m'.process.shmem_array i = m.process.shmem_array i := by
  rcases step_cases hs with ⟨modname, rfl⟩ | ⟨module_id, rfl⟩ | ht
  · obtain ⟨hk, hsame, -⟩ :=
      perform_of_every (K := K) (m := m) (h.separate.rtapi_init (l := []) modname)
    have hslot := hsame i h.foreign
    exact ⟨.of_keyed hk ((valid_slot hslot).mpr h.valid)
      ((congrArg Handle.key hslot).trans h.key), hslot⟩
  · obtain ⟨hs, hid, hsame⟩ :=
      perform_of_every (K := K) (m := m) (h.separate.rtapi_exit (l := []) module_id)
    have hslot := hsame i h.other
    exact ⟨h.of_slot hs hid hslot, hslot⟩
  · exact h.tabled ht

/-- The segment of another key. -/
theorem shmem_new (h : s.Guards i) {key : Int} (hk : key ≠ HAL_KEY) (module_id : Int) (size : Nat) :
    Every (rtapi_shmem_new key module_id size) s l fun _ _ s' =>
      s'.Guards i ∧ s'.shmem_array i = s.shmem_array i :=
  (h.separate.shmem_new key module_id size).mono fun _ _ _ ⟨hs, hid, hsame, _⟩ =>
    have hslot := hsame i h.valid (by rw [h.key]; exact hk.symm)
    ⟨h.of_slot hs hid hslot, hslot⟩

/-- The segment of HAL once more. -/
theorem again (h : s.Guards i) (module_id : Int) (size : Nat) :
    Every (rtapi_shmem_new HAL_KEY module_id size) s l fun _ _ s' => s'.Guards i ∧
      ((s'.shmem_array i).count = (s.shmem_array i).count ∨
        (s'.shmem_array i).count = toInt32 ((s.shmem_array i).count + 1)) := by
  have hi := h.separate.low i h.valid
  refine (rtapi_shmem_new_spec HAL_KEY module_id size).mono fun _ r s' hout => ?_
  rcases hout with ⟨-, rfl, -⟩ | ⟨j, -, -, hv, hk, -, rfl⟩ | ⟨j, -, -, hmiss, -⟩
  · exact ⟨h, .inl rfl⟩
  · obtain rfl := h.separate.unique j i hv h.valid (hk.trans h.key.symm)
    have hslot := Separate.count_slot s j (toInt32 ((s.shmem_array j).count + 1)) j
    exact ⟨⟨h.separate.count j _, hslot.1.mpr h.valid, hslot.2.2.2.trans h.key, h.other⟩,
      .inr (congrArg Handle.count (s.setSlot_self j _))⟩
  · exact absurd h.key (hmiss i hi h.valid)

end Process.Guards

end RTS.Uspace

namespace RTS.Hal

open RTS.Support RTS.Uspace

variable {K : Kernel} {α β : Type} {i : Nat} {x : Prog Machine α} {f : α → Prog Machine β}

/-! ### Programs -/

/-- The handle `i` of HAL stays as it is. -/
def Holds (i : Nat) (s s' : State Machine) : Prop :=
  s.rt.process.Guards i →
    s'.rt.process.Guards i ∧ s'.rt.process.shmem_array i = s.rt.process.shmem_array i

/-- The handle `i` of HAL stays open, and is counted once more at most. -/
def Recounts (i : Nat) (s s' : State Machine) : Prop :=
  s.rt.process.Guards i → s'.rt.process.Guards i ∧
    ((s'.rt.process.shmem_array i).count = (s.rt.process.shmem_array i).count ∨
      (s'.rt.process.shmem_array i).count = toInt32 ((s.rt.process.shmem_array i).count + 1))

instance : Std.Refl (Holds i) where
  refl _ h := ⟨h, rfl⟩

instance : IsTrans (State Machine) (Holds i) where
  trans _ _ _ h h' hi :=
    have ⟨h₁, e₁⟩ := h hi
    have ⟨h₂, e₂⟩ := h' h₁
    ⟨h₂, e₂.trans e₁⟩

namespace Holds

theorem outer : Outer (rtapi K) (Holds i) where
  inside _ _ _ _ _ h := ⟨h, rfl⟩
  step _ _ hs h := h.step hs

theorem recounts {s s' : State Machine} (h : Holds i s s') : Recounts i s s' := fun hi =>
  have ⟨h', e⟩ := h hi
  ⟨h', .inl (by rw [e])⟩

theorem along (h : Along (Holds i) x) : Along (Recounts i) x := h.mono fun _ _ => recounts

/-- The statics of HAL are no part of it. -/
theorem statics {g : State Machine → State Machine} (hg : ∀ s, (g s).rt = s.rt) :
    Along (Holds i) (modify g : Prog Machine PUnit) :=
  .modify fun s h => by rw [hg]; exact ⟨h, rfl⟩

theorem shmem_new {key : Int} (hk : key ≠ HAL_KEY) (module_id size : Int) :
    Along (Holds i) (call ((rtapi K).shmem_new key module_id size)) :=
  .modifyGet fun s h =>
    perform_of_every (K := K) (m := s.rt) (h.shmem_new (l := []) hk module_id size.toNat)

theorem shmem_getptr (handle : Int) : Along (Holds i) (call ((rtapi K).shmem_getptr handle)) :=
  .modifyGet fun s h => by
    show ((rtapi K).shmem_getptr handle s.rt).2.process.Guards i ∧ _
    rw [getptr_process]
    exact ⟨h, rfl⟩

end Holds

namespace Recounts

/-- First what leaves the handle. -/
theorem after (hx : Along (Holds i) x) (hf : ∀ a, Along (Recounts i) (f a)) :
    Along (Recounts i) (x >>= f) :=
  hx.seq hf (fun _ _ => Holds.recounts) fun _ _ _ h h' hi =>
    have ⟨h₁, e⟩ := h hi
    e ▸ h' h₁

/-- Last what leaves the handle. -/
theorem before (hx : Along (Recounts i) x) (hf : ∀ a, Along (Holds i) (f a)) :
    Along (Recounts i) (x >>= f) :=
  hx.seq hf (fun _ _ => id) fun _ _ _ h h' hi =>
    have ⟨h₁, e₁⟩ := h hi
    have ⟨h₂, e₂⟩ := h' h₁
    ⟨h₂, by rw [e₂]; exact e₁⟩

/-- `hal_init_lib` of a library that has the segment already. -/
theorem hal_init_lib : Along (Recounts i) (hal_init_lib (rtapi K)) :=
  have ho := Holds.outer (K := K) (i := i)
  after .get fun _ => .ite (Holds.along .pure) <| after (ho.call fun _ => .getpid) fun _ =>
    after (ho.call fun _ => .init _) fun _ => after (Holds.statics fun _ => rfl) fun _ =>
    .ite (Holds.along .pure) <| before
      (.modifyGet fun s h => perform_of_every (K := K) (m := s.rt) (h.again (l := []) _ _)) fun _ =>
    .bind (Holds.statics fun _ => rfl) fun _ =>
    .ite (.bind (ho.call fun _ => .exit _) fun _ => .pure) <| .bind (Holds.shmem_getptr _) fun _ =>
    .ite (.bind (ho.call fun _ => .exit _) fun _ => .pure) <|
    .bind (Holds.statics fun _ => rfl) fun _ => .bind ho.init_hal_data fun _ =>
    .ite (.bind (ho.call fun _ => .exit _) fun _ => .pure) .pure

theorem hal_init (name : Option CStr) : Along (Recounts i) (hal_init (rtapi K) name) := by
  have hcomp : ∀ n, Along (Holds i) (hal_init_comp (rtapi K) n) := fun n =>
    (Holds.outer (K := K)).keeps.hal_init_comp n
  rcases name with _ | name
  · exact Holds.along .pure
  · exact .ite (Holds.along .pure) <| after .get fun _ =>
      .ite (before hal_init_lib fun _ => .ite .pure (hcomp name)) (Holds.along (hcomp name))

theorem hal_create_thread (name : CStr) (period_nsec : Nat) (uses_fp priority : Int) :
    Along (Recounts i) (hal_create_thread (rtapi K) name period_nsec uses_fp priority) := by
  have hk := (Holds.outer (K := K) (i := i)).keeps
  have hcomp : ∀ new, Along (Recounts i) (create_thread_comp (rtapi K) new) := fun new =>
    after .get fun _ => before (hal_init _) fun _ =>
      .bind (hk.set fun _ => ⟨rfl, rfl, rfl⟩) fun _ => .ite .pure <|
      .bind (hk.set fun _ => ⟨rfl, rfl, rfl⟩) fun _ => .bind (hk.hal_param_new _ _ _ _ _) fun _ =>
      .ite .pure <| .bind (hk.hal_pin_newf _ _ _ _) fun _ => .ite .pure <|
      .bind hk.storeThrough fun _ => .bind (hk.hal_ready _) fun _ => .pure
  refine after .get fun _ => .ite (Holds.along .pure) <| .ite (Holds.along .pure) <|
    .ite (Holds.along .pure) <| .ite (Holds.along .pure) <|
    after (hk.create_thread_task Holds.outer.free_thread_struct name period_nsec uses_fp priority)
      fun made => ?_
  cases made with
  | error e => exact Holds.along .pure
  | ok new => exact hcomp new

end Recounts

end RTS.Hal

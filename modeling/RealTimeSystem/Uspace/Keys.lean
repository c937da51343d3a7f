import RealTimeSystem.Hal.Outside
import RealTimeSystem.Uspace.Rtapi

/-!
# RTAPI — one open handle for each key

The open handles have different keys, and the one that `rtapi_exit` closes is that of the UUID
segment.  So no call of RTAPI closes the handle of another key but `rtapi_shmem_delete` itself.
-/

namespace RTS.Uspace

open RTS.Support RTS.Hal

variable {K : Kernel} {m : Machine} {s s' : Process} {l : List (Asked Process Call Call.Answer)}

/-- The open handles are mapped, with different keys, and `uuid_mem_id` is of no other key. -/
structure Keyed (s : Process) : Prop where
  low : ∀ i, s.Valid i → i < MAX_SHM
  active : ∀ i, s.Valid i → (s.shmem_array i).state = .active
  mem : ∀ i, s.Valid i → (s.shmem_array i).mem ≠ 0
  unique : ∀ i j, s.Valid i → s.Valid j → (s.shmem_array i).key = (s.shmem_array j).key → i = j
  uuid : ∀ i : Nat, s.uuid_mem_id = i → s.Valid i → (s.shmem_array i).key = UUID_KEY

/-- The handle `i` is open, and its segment is that of HAL, mapped at `a`. -/
structure Process.Mounts (s : Process) (i : Nat) (a : Addr) : Prop where
  valid : s.Valid i
  key : (s.shmem_array i).key = HAL_KEY
  mem : (s.shmem_array i).mem = a

/-- The handle `i` is open, and not the one of the UUID segment. -/
structure Process.Foreign (s : Process) (i : Nat) : Prop where
  valid : s.Valid i
  key : (s.shmem_array i).key ≠ UUID_KEY

theorem Process.Mounts.foreign {i : Nat} {a : Addr} (h : s.Mounts i a) : s.Foreign i :=
  ⟨h.valid, by rw [h.key]; decide⟩

theorem Process.Foreign.of_slot {i : Nat} (h : s.Foreign i)
    (hs : s'.shmem_array i = s.shmem_array i) : s'.Foreign i := by
  refine ⟨?_, ?_⟩
  · unfold Process.Valid
    rw [hs]
    exact h.valid
  · rw [hs]
    exact h.key

/-- What HAL mapped stays mapped. -/
def Process.Mounted (s s' : Process) : Prop := ∀ i a, s.Mounts i a → s'.Mounts i a

theorem Process.Mounts.of_slot {i : Nat} {a : Addr} (h : s.Mounts i a)
    (hs : s'.shmem_array i = s.shmem_array i) : s'.Mounts i a := by
  refine ⟨?_, ?_, ?_⟩
  · unfold Process.Valid
    rw [hs]
    exact h.valid
  · rw [hs]
    exact h.key
  · rw [hs]
    exact h.mem

theorem valid_slot {i : Nat} (hs : s'.shmem_array i = s.shmem_array i) : s'.Valid i ↔ s.Valid i := by
  unfold Process.Valid
  rw [hs]

/-- The key and the count of a handle that is open. -/
def Process.references (s : Process) (i : Nat) : Option (Int × Int) :=
  if (s.shmem_array i).magic = SHMEM_MAGIC then
    some ((s.shmem_array i).key, (s.shmem_array i).count)
  else none

theorem references_none {i : Nat} (h : ¬ s.Valid i) : s.references i = none := if_neg h

theorem references_some {i : Nat} (h : s.Valid i) :
    s.references i = some ((s.shmem_array i).key, (s.shmem_array i).count) := if_pos h

theorem references_slot {i : Nat} (h : s'.shmem_array i = s.shmem_array i) :
    s'.references i = s.references i := by
  unfold Process.references
  rw [h]

/-- The open handles are mapped, with different keys. -/
structure Separate (s : Process) : Prop where
  low : ∀ i, s.Valid i → i < MAX_SHM
  active : ∀ i, s.Valid i → (s.shmem_array i).state = .active
  mem : ∀ i, s.Valid i → (s.shmem_array i).mem ≠ 0
  unique : ∀ i j, s.Valid i → s.Valid j → (s.shmem_array i).key = (s.shmem_array j).key → i = j

theorem Keyed.separate (h : Keyed s) : Separate s := ⟨h.low, h.active, h.mem, h.unique⟩

namespace Separate

theorem keyed (h : Separate s)
    (hu : ∀ i : Nat, s.uuid_mem_id = i → s.Valid i → (s.shmem_array i).key = UUID_KEY) : Keyed s :=
  ⟨h.low, h.active, h.mem, h.unique, hu⟩

theorem of_closed (h : ∀ i, ¬ s.Valid i) : Separate s :=
  ⟨fun i hi => absurd hi (h i), fun i hi => absurd hi (h i), fun i hi => absurd hi (h i),
    fun i _ hi => absurd hi (h i)⟩

/-- The table is as before. -/
theorem of_table (h : Separate s) (hs : s'.shmem_array = s.shmem_array) : Separate s' := by
  have hv : ∀ i, s'.Valid i ↔ s.Valid i := fun i => valid_slot (congrFun hs i)
  refine ⟨fun i hi => h.low i ((hv i).mp hi), fun i hi => ?_, fun i hi => ?_, fun i j hi hj => ?_⟩
  · rw [hs]
    exact h.active i ((hv i).mp hi)
  · rw [hs]
    exact h.mem i ((hv i).mp hi)
  · rw [hs]
    exact h.unique i j ((hv i).mp hi) ((hv j).mp hj)

/-- What a count that changed leaves. -/
theorem count_slot (s : Process) (i : Nat) (n : Int) (j : Nat) :
    let s' := s.setSlot i { s.shmem_array i with count := n }
    (s'.Valid j ↔ s.Valid j) ∧ (s'.shmem_array j).state = (s.shmem_array j).state ∧
      (s'.shmem_array j).mem = (s.shmem_array j).mem ∧
      (s'.shmem_array j).key = (s.shmem_array j).key := by
  intro s'
  unfold Process.Valid
  by_cases hj : j = i
  · subst hj
    rw [Process.setSlot_self]
    exact ⟨.rfl, rfl, rfl, rfl⟩
  · rw [Process.setSlot_of_ne _ hj]
    exact ⟨.rfl, rfl, rfl, rfl⟩

/-- The count of a handle changed. -/
theorem count (h : Separate s) (i : Nat) (n : Int) :
    Separate (s.setSlot i { s.shmem_array i with count := n }) := by
  have hslot := count_slot s i n
  refine ⟨fun j hj => h.low j ((hslot j).1.mp hj), fun j hj => ?_, fun j hj => ?_,
    fun j k hj hk => ?_⟩
  · rw [(hslot j).2.1]
    exact h.active j ((hslot j).1.mp hj)
  · rw [(hslot j).2.2.1]
    exact h.mem j ((hslot j).1.mp hj)
  · rw [(hslot j).2.2.2, (hslot k).2.2.2]
    exact h.unique j k ((hslot j).1.mp hj) ((hslot k).1.mp hk)

/-- The handle `i` was closed. -/
theorem closed {i : Nat} (h : Separate s) (hs : Slotted i s s') (hv : ¬ s'.Valid i) :
    Separate s' := by
  have hne : ∀ j, s'.Valid j → j ≠ i := fun j hj e => hv (e ▸ hj)
  have hold : ∀ j, s'.Valid j → s.Valid j := fun j hj =>
    (valid_slot (hs.others j (hne j hj))).mp hj
  refine ⟨fun j hj => h.low j (hold j hj), fun j hj => ?_, fun j hj => ?_, fun j k hj hk => ?_⟩
  · rw [hs.others j (hne j hj)]
    exact h.active j (hold j hj)
  · rw [hs.others j (hne j hj)]
    exact h.mem j (hold j hj)
  · rw [hs.others j (hne j hj), hs.others k (hne k hk)]
    exact h.unique j k (hold j hj) (hold k hk)

/-- The handle `i` was opened, for a key that had none. -/
theorem opened {i : Nat} {key : Int} {a : Addr} (h : Separate s) (hs : Slotted i s s')
    (hi : i < MAX_SHM) (ha : a ≠ 0) (hmiss : ∀ j, s.Valid j → (s.shmem_array j).key ≠ key)
    (hslot : s'.shmem_array i = { s'.shmem_array i with
      magic := SHMEM_MAGIC, key := key, count := 1, mem := a, state := .active }) :
    Separate s' := by
  have hold : ∀ j, j ≠ i → s'.Valid j → s.Valid j := fun j hj hv => (valid_slot (hs.others j hj)).mp hv
  have hkey : (s'.shmem_array i).key = key := by rw [hslot]
  have hactive : (s'.shmem_array i).state = .active := by rw [hslot]
  have hmem : (s'.shmem_array i).mem = a := by rw [hslot]
  refine ⟨fun j hv => ?_, fun j hv => ?_, fun j hv => ?_, fun j k hj hk e => ?_⟩
  · by_cases hj : j = i
    · exact hj ▸ hi
    · exact h.low j (hold j hj hv)
  · by_cases hj : j = i
    · exact hj ▸ hactive
    · rw [hs.others j hj]
      exact h.active j (hold j hj hv)
  · by_cases hj : j = i
    · subst hj
      rwa [hmem]
    · rw [hs.others j hj]
      exact h.mem j (hold j hj hv)
  · by_cases hji : j = i <;> by_cases hki : k = i
    · rw [hji, hki]
    · subst hji
      rw [hkey, hs.others k hki] at e
      exact absurd e.symm (hmiss k (hold k hki hk))
    · subst hki
      rw [hkey, hs.others j hji] at e
      exact absurd e (hmiss j (hold j hji hj))
    · rw [hs.others j hji, hs.others k hki] at e
      exact h.unique j k (hold j hji hj) (hold k hki hk) e

/-- `rtapi_shmem_new`: a handle of the key, or the handles are as before. -/
theorem shmem_new (h : Separate s) (key module_id : Int) (size : Nat) :
    Every (rtapi_shmem_new key module_id size) s l fun _ r s' =>
      Separate s' ∧ s'.uuid_mem_id = s.uuid_mem_id ∧
      (∀ j, s.Valid j → (s.shmem_array j).key ≠ key → s'.shmem_array j = s.shmem_array j) ∧
      (r < 0 ∧ (∀ j, s.Valid j → s'.shmem_array j = s.shmem_array j) ∧
          (∀ j, ¬ s.Valid j → ¬ s'.Valid j) ∨
        ∃ i : Nat, r = i ∧ s'.Valid i ∧ (s'.shmem_array i).key = key ∧
          ∀ c, s.references i = some (key, c) → (s'.shmem_array i).count = toInt32 (c + 1)) := by
  refine (rtapi_shmem_new_spec key module_id size).mono fun l' r s' hout => ?_
  rcases hout with ⟨hr, rfl, -⟩ | ⟨i, -, rfl, hv, hk, -, rfl⟩ | ⟨i, hi, hv, hmiss, hs, -, hout⟩
  · exact ⟨h, rfl, fun _ _ _ => rfl, .inl ⟨hr, fun _ _ => rfl, fun _ => id⟩⟩
  · have hv' := (count_slot s i (toInt32 ((s.shmem_array i).count + 1)) i).1.mpr hv
    refine ⟨h.count i _, rfl, fun j _ hj => Process.setSlot_of_ne _ (fun e : j = i => hj (e ▸ hk)) _,
      .inr ⟨i, rfl, hv', (count_slot s i _ i).2.2.2.trans hk, fun c e => ?_⟩⟩
    rw [references_some hv] at e
    cases e
    exact congrArg Handle.count (s.setSlot_self i _)
  have hother : ∀ j, s.Valid j → s'.shmem_array j = s.shmem_array j := fun j hj =>
    hs.others j fun e => hv (e ▸ hj)
  rcases hout with ⟨hr, hv', -⟩ | ⟨a, hr, -, -, hslot⟩
  · refine ⟨h.closed hs hv', hs.mem_id, fun j hj _ => hother j hj, .inl ⟨hr, hother, fun j hj => ?_⟩⟩
    by_cases hji : j = i
    · exact hji ▸ hv'
    · exact fun hvj => hj ((valid_slot (hs.others j hji)).mp hvj)
  · have hv' : s'.Valid i := by
      unfold Process.Valid
      rw [hslot]
    refine ⟨h.opened hs hi a.ne (fun j hj => hmiss j (h.low j hj) hj) hslot, hs.mem_id,
      fun j hj _ => hother j hj, .inr ⟨i, hr, hv', by rw [hslot], fun c e => ?_⟩⟩
    rw [references_none hv] at e
    cases e

/-- `rtapi_exit` leaves a handle that is not the one of the UUID segment. -/
theorem rtapi_exit (h : Separate s) (module_id : Int) :
    Every (rtapi_exit module_id) s l fun _ _ s' => Separate s' ∧ s'.uuid_mem_id = s.uuid_mem_id ∧
      ∀ i : Nat, s.uuid_mem_id ≠ i → s'.shmem_array i = s.shmem_array i := by
  unfold Uspace.rtapi_exit
  rw [every_bind, every_get, every_bind]
  refine (rtapi_shmem_delete_spec s.uuid_mem_id module_id h.active).mono fun l' r s' hout => ?_
  rcases hout with ⟨rfl, -, -⟩ | ⟨i, -, hid, hv, hout⟩
  · exact ⟨h, rfl, fun _ _ => rfl⟩
  have hne : ∀ j : Nat, s.uuid_mem_id ≠ j → j ≠ i := fun j hj e => hj (e ▸ hid)
  rcases hout with ⟨-, -, rfl⟩ | ⟨-, hs, hv', -⟩
  · exact ⟨h.count i _, rfl, fun j hj => Process.setSlot_of_ne _ (hne j hj) _⟩
  · exact ⟨h.closed hs hv', hs.mem_id, fun j hj => hs.others j (hne j hj)⟩

theorem shmem_delete (h : Separate s) (handle module_id : Int) :
    Every (rtapi_shmem_delete handle module_id) s l fun _ _ s' => Separate s' := by
  refine (rtapi_shmem_delete_spec handle module_id h.active).mono fun l' r s' hout => ?_
  rcases hout with ⟨rfl, -, -⟩ | ⟨j, -, -, -, ⟨-, -, rfl⟩ | ⟨-, hs, hv, -⟩⟩
  · exact h
  · exact h.count j _
  · exact h.closed hs hv

/-- `rtapi_init` sets `uuid_mem_id`, whatever it was. -/
theorem rtapi_init (h : Separate s) (modname : CStr) :
    Every (rtapi_init modname) s l fun _ r s' => Keyed s' ∧
      (∀ i, s.Foreign i → s'.shmem_array i = s.shmem_array i) ∧
      (0 ≤ r → ∃ i : Nat, s'.uuid_mem_id = i ∧ s'.Valid i) := by
  unfold Uspace.rtapi_init
  rw [every_bind]
  refine (h.shmem_new UUID_KEY 0 UUID_SIZE).mono fun l₁ id s₁ ⟨h₁, _, hsame, hid⟩ => ?_
  have hforeign : ∀ i, s.Foreign i → s₁.shmem_array i = s.shmem_array i := fun i hi =>
    hsame i hi.valid hi.key
  rw [every_bind, every_modify]
  set s₂ : Process := { s₁ with uuid_mem_id := id } with hs₂
  have h₂ : Keyed s₂ := by
    refine Separate.keyed (h₁.of_table rfl) fun i e hi => ?_
    rcases hid with ⟨hneg, -⟩ | ⟨j, hj, -, hk, -⟩
    · exact absurd (show id = i from e) (by omega)
    · obtain rfl : j = i := by
        have : id = i := e
        omega
      exact hk
  refine .ite (fun hneg => ?_) fun hpos => ?_
  · rw [every_bind]
    refine (h₂.separate.rtapi_exit 0).mono fun _ _ s₃ ⟨h₃, hmem, hsame₃⟩ =>
      ⟨h₃.keyed fun i e _ => ?_, fun i hi => ?_, fun h => absurd h (by decide)⟩
    · exact absurd (show id = i from hmem.symm.trans e) (by omega)
    · exact (hsame₃ i fun e => absurd (show id = i from e) (by omega)).trans (hforeign i hi)
  obtain ⟨i, rfl, hv, -⟩ := hid.resolve_left fun h => hpos h.1
  rw [every_bind]
  refine (rtapi_shmem_getptr_spec (i : Int)).mono fun _ p s₃ ⟨hs₃, _, _, hp⟩ => ?_
  subst hs₃
  have hp := hp i rfl (h₂.low i hv) hv (h₂.active i hv)
  subst hp
  refine .ite (fun h => absurd h (show ¬ (0 : Int) < 0 by decide)) fun _ => ?_
  rw [every_bind, every_modify, every_bind, every_modify, every_bind, every_get, every_pure]
  set s₄ : Process := if s₂.uuid_data = 0 then
    { s₂ with uuid_data := (s₂.shmem_array i).mem } else s₂ with hs₄
  have htable : s₄.shmem_array = s₁.shmem_array ∧ s₄.uuid_mem_id = i := by
    rw [hs₄]
    split_ifs
    · exact ⟨rfl, rfl⟩
    · exact ⟨rfl, rfl⟩
  refine ⟨Separate.keyed (h₂.separate.of_table htable.1) fun j e hj => ?_, fun j hj => ?_,
    fun _ => ⟨i, htable.2, (valid_slot (congrFun htable.1 i)).mpr hv⟩⟩
  · have hkey : (s₄.shmem_array j).key = (s₁.shmem_array j).key := by rw [htable.1]
    exact hkey.trans (h₂.uuid j (htable.2.symm.trans e) ((valid_slot (congrFun htable.1 j)).mp hj))
  · exact (congrFun htable.1 j).trans (hforeign j hj)

end Separate

namespace Keyed

/-- The table is as before. -/
theorem of_table (h : Keyed s) (hs : s'.shmem_array = s.shmem_array)
    (hu : ∀ i : Nat, s'.uuid_mem_id = i → s.Valid i → (s.shmem_array i).key = UUID_KEY) :
    Keyed s' := by
  refine (h.separate.of_table hs).keyed fun i e => ?_
  rw [valid_slot (congrFun hs i), hs]
  exact hu i e

/-- The count of a handle changed. -/
theorem count (h : Keyed s) (i : Nat) (n : Int) :
    Keyed (s.setSlot i { s.shmem_array i with count := n }) ∧
      s.Mounted (s.setSlot i { s.shmem_array i with count := n }) := by
  have hslot := Separate.count_slot s i n
  refine ⟨(h.separate.count i n).keyed fun j e hj => ?_, fun j a hj => ⟨(hslot j).1.mpr hj.valid, ?_, ?_⟩⟩
  · rw [(hslot j).2.2.2]
    exact h.uuid j e ((hslot j).1.mp hj)
  · exact (hslot j).2.2.2.trans hj.key
  · exact (hslot j).2.2.1.trans hj.mem

/-- The handle `i` was closed. -/
theorem closed {i : Nat} (h : Keyed s) (hs : Slotted i s s') (hv : ¬ s'.Valid i) : Keyed s' := by
  refine (h.separate.closed hs hv).keyed fun j e hj => ?_
  have hslot := hs.others j fun e => hv (e ▸ hj)
  rw [hslot]
  exact h.uuid j (hs.mem_id.symm.trans e) ((valid_slot hslot).mp hj)

/-- The handle `i` was opened, for a key that had none. -/
theorem opened {i : Nat} {key : Int} {a : Addr} (h : Keyed s) (hs : Slotted i s s')
    (hi : i < MAX_SHM) (ha : a ≠ 0) (hmiss : ∀ j, s.Valid j → (s.shmem_array j).key ≠ key)
    (hslot : s'.shmem_array i = { s'.shmem_array i with
      magic := SHMEM_MAGIC, key := key, count := 1, mem := a, state := .active })
    (hu : ∀ j : Nat, s.uuid_mem_id = j → j = i → key = UUID_KEY) : Keyed s' := by
  refine (h.separate.opened hs hi ha hmiss hslot).keyed fun j e hv => ?_
  have e' : s.uuid_mem_id = j := hs.mem_id.symm.trans e
  by_cases hj : j = i
  · rw [hj, show (s'.shmem_array i).key = key by rw [hslot]]
    exact hu j e' hj
  · rw [hs.others j hj]
    exact h.uuid j e' ((valid_slot (hs.others j hj)).mp hv)

/-- The walk and the opening of `rtapi_shmem_new`; a handle that is opened must not be the one of
`rtapi_init`. -/
theorem shmem_new (h : Keyed s) {key : Int} (module_id : Int) (size : Nat)
    (hu : key = UUID_KEY ∨ ∃ i : Nat, s.uuid_mem_id = i ∧ s.Valid i) :
    Every (rtapi_shmem_new key module_id size) s l fun _ r s' =>
      Keyed s' ∧ s.Mounted s' ∧
      (∀ j, s.Valid j → (s.shmem_array j).key ≠ key → s'.shmem_array j = s.shmem_array j) ∧
      (r < 0 ∨ ∃ i : Nat, r = i ∧ s'.Valid i ∧ (s'.shmem_array i).key = key) := by
  refine (rtapi_shmem_new_spec key module_id size).mono fun l' r s' hout => ?_
  rcases hout with ⟨hr, rfl, -⟩ | ⟨i, -, rfl, hv, hk, -, rfl⟩ | ⟨i, hi, hv, hmiss, hs, -, hout⟩
  · exact ⟨h, fun _ _ hm => hm, fun _ _ _ => rfl, .inl hr⟩
  · obtain ⟨h', hm⟩ := h.count i (toInt32 ((s.shmem_array i).count + 1))
    refine ⟨h', hm, fun j _ hj => Process.setSlot_of_ne _ (fun e : j = i => hj (e ▸ hk)) _,
      .inr ⟨i, rfl, ?_, ?_⟩⟩
    · unfold Process.Valid
      rw [Process.setSlot_self]
      exact hv
    · rw [Process.setSlot_self]
      exact hk
  have hother : ∀ j, s.Valid j → s'.shmem_array j = s.shmem_array j := fun j hj =>
    hs.others j fun e => hv (e ▸ hj)
  have hmount : s.Mounted s' := fun j a hj => hj.of_slot (hother j hj.valid)
  rcases hout with ⟨hr, hv', -⟩ | ⟨a, hr, -, -, hslot⟩
  · exact ⟨h.closed hs hv', hmount, fun j hj _ => hother j hj, .inl hr⟩
  · refine ⟨h.opened hs hi a.ne (fun j hj => hmiss j (h.low j hj) hj) hslot fun j e hj => ?_,
      hmount, fun j hj _ => hother j hj, .inr ⟨i, hr, ?_, by rw [hslot]⟩⟩
    · rcases hu with hu | ⟨k, hk, hvk⟩
      · exact hu
      · exact absurd (show s.Valid i by rwa [← hj, show j = k by omega]) hv
    · unfold Process.Valid
      rw [hslot]

/-- `rtapi_shmem_new` of the segment of HAL when it is mapped: its handle once more. -/
theorem shmem_new_mounted (h : Keyed s) {i : Nat} {a : Addr} (hi : s.Mounts i a) (module_id : Int) :
    Every (rtapi_shmem_new HAL_KEY module_id (HAL_SIZE : Int).toNat) s l fun _ r s' =>
      r = i ∧ Keyed s' ∧ s.Mounted s' := by
  unfold rtapi_shmem_new
  refine .ite (fun e => absurd e (by decide)) fun _ => .ite (fun e => absurd e (by decide)) fun _ => ?_
  rw [every_bind, every_get]
  rcases hs : scan s.shmem_array HAL_KEY MAX_SHM 0 none with j | o
  · obtain ⟨-, hj, hk⟩ := scan_hit hs
    obtain rfl : j = i := h.unique j i hj hi.valid (hk.trans hi.key.symm)
    exact ⟨rfl, h.count j _⟩
  · exact absurd hi.key ((scan_miss hs).1 i (Nat.zero_le i) (by simpa using h.low i hi.valid) hi.valid)

theorem rtapi_exit (h : Keyed s) (module_id : Int) :
    Every (rtapi_exit module_id) s l fun _ _ s' =>
      Keyed s' ∧ ∀ i, s.Foreign i → s'.shmem_array i = s.shmem_array i := by
  unfold Uspace.rtapi_exit
  rw [every_bind, every_get, every_bind]
  refine (rtapi_shmem_delete_spec s.uuid_mem_id module_id h.active).mono fun l' r s' hout => ?_
  rcases hout with ⟨rfl, -, -⟩ | ⟨i, -, hid, hv, hout⟩
  · exact ⟨h, fun _ _ => rfl⟩
  have hne : ∀ j, s.Foreign j → j ≠ i := fun j hj e => by
    subst e
    exact hj.key (h.uuid j hid hv)
  rcases hout with ⟨-, -, rfl⟩ | ⟨-, hs, hv', -⟩
  · exact ⟨(h.count i _).1, fun j hj => Process.setSlot_of_ne _ (hne j hj) _⟩
  · exact ⟨h.closed hs hv', fun j hj => hs.others j (hne j hj)⟩

theorem rtapi_init (h : Keyed s) (modname : CStr) :
    Every (rtapi_init modname) s l fun _ r s' => Keyed s' ∧
      (∀ i, s.Foreign i → s'.shmem_array i = s.shmem_array i) ∧
      (0 ≤ r → ∃ i : Nat, s'.uuid_mem_id = i ∧ s'.Valid i) := h.separate.rtapi_init modname

/-- `rtapi_shmem_delete` of a handle that keeps a reference. -/
theorem shmem_delete (h : Keyed s) {i : Nat} (hc : 0 < toInt32 ((s.shmem_array i).count - 1))
    (module_id : Int) :
    Every (rtapi_shmem_delete i module_id) s l fun _ _ s' => Keyed s' ∧ s.Mounted s' := by
  refine (rtapi_shmem_delete_spec (i : Int) module_id h.active).mono fun l' r s' hout => ?_
  rcases hout with ⟨rfl, -, -⟩ | ⟨j, -, hj, hv, hout⟩
  · exact ⟨h, fun _ _ hm => hm⟩
  obtain rfl : i = j := by omega
  rcases hout with ⟨-, -, rfl⟩ | ⟨hc', -⟩
  · exact h.count i _
  · exact absurd hc hc'

/-- `rtapi_shmem_delete` of any handle leaves the other keys. -/
theorem shmem_delete_any (h : Keyed s) (handle module_id : Int) :
    Every (rtapi_shmem_delete handle module_id) s l fun _ _ s' => Keyed s' := by
  refine (rtapi_shmem_delete_spec handle module_id h.active).mono fun l' r s' hout => ?_
  rcases hout with ⟨rfl, -, -⟩ | ⟨j, -, -, -, ⟨-, -, rfl⟩ | ⟨-, hs, hv, -⟩⟩
  · exact h
  · exact (h.count j _).1
  · exact h.closed hs hv

theorem tabled (h : Keyed s) (ht : Tabled s s') :
    Keyed s' ∧ ∀ i, s.Foreign i → s'.shmem_array i = s.shmem_array i :=
  ⟨h.of_table ht.shmem fun i e => h.uuid i (ht.mem_id.symm.trans e), fun i _ =>
    congrFun ht.shmem i⟩

end Keyed

/-! ### The calls of RTAPI -/

/-- The calls but two leave the handles. -/
theorem step_cases {m' : Machine} (hs : (rtapi K).Step m m') :
    (∃ modname, m' = ((rtapi K).init modname m).2) ∨
      (∃ module_id, m' = ((rtapi K).exit module_id m).2) ∨ Tabled m.process m'.process := by
  cases hs with
  | init modname => exact .inl ⟨modname, rfl⟩
  | exit module_id => exact .inr (.inl ⟨module_id, rfl⟩)
  | clock_set_period nsecs => exact .inr (.inr (clock_set_period_result nsecs).1)
  | task_new arg prio owner stacksize uses_fp =>
      rcases task_new_result (K := K) (m := m) arg prio owner stacksize uses_fp with
        ⟨-, e⟩ | ⟨n, t, -, -, -, -, -, e⟩
      · exact .inr (.inr (e ▸ .refl _))
      · exact .inr (.inr (e ▸ .setTask _ _ _))
  | task_start task_id period_nsec =>
      exact .inr (.inr (task_start_result task_id period_nsec).1.toTabled)
  | task_pause task_id => exact .inr (.inr (task_pause_result task_id).toTabled)
  | task_delete id => exact .inr (.inr (task_delete_result id).toTabled)
  | getpid => exact .inr (.inr (.refl _))

theorem Separate.step {m' : Machine} (h : Separate m.process) (hs : (rtapi K).Step m m') :
    Separate m'.process := by
  rcases step_cases hs with ⟨modname, rfl⟩ | ⟨module_id, rfl⟩ | ht
  · exact (perform_of_every (K := K) (m := m) (h.rtapi_init (l := []) modname)).1.separate
  · exact (perform_of_every (K := K) (m := m) (h.rtapi_exit (l := []) module_id)).1
  · exact h.of_table ht.shmem

/-- The calls of RTAPI leave the handles but the one of the UUID segment. -/
theorem Keyed.step {m' : Machine} (h : Keyed m.process) (hs : (rtapi K).Step m m') :
    Keyed m'.process ∧
      ∀ i, m.process.Foreign i → m'.process.shmem_array i = m.process.shmem_array i := by
  rcases step_cases hs with ⟨modname, rfl⟩ | ⟨module_id, rfl⟩ | ht
  · have hi := perform_of_every (K := K) (m := m) (h.rtapi_init (l := []) modname)
    exact ⟨hi.1, hi.2.1⟩
  · exact perform_of_every (K := K) (m := m) (h.rtapi_exit (l := []) module_id)
  · exact h.tabled ht

end RTS.Uspace

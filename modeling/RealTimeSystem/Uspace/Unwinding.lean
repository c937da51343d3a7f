import RealTimeSystem.Uspace.Alive
import RealTimeSystem.Uspace.Keys

/-!
# RTAPI — an `rtapi_init` taken back

`rtapi_init` counts the handle of the UUID segment once more or opens it, and `rtapi_exit` gives
that back.  An `rtapi_init` that fails after it has the segment gives nothing back: its error is
that the counter in the segment has run over.
-/

namespace RTS.Uspace

open RTS.Support RTS.Hal

/-! ### The open handles -/

/-- A handle of the key is open. -/
def Process.Opens (s : Process) (key : Int) : Prop :=
  ∃ i < MAX_SHM, s.Valid i ∧ (s.shmem_array i).key = key

instance (s : Process) (key : Int) : Decidable (s.Opens key) :=
  inferInstanceAs (Decidable (∃ i < MAX_SHM, (s.shmem_array i).magic = SHMEM_MAGIC ∧ _))

/-- The same handles are open, with the same counts. -/
def SameReferences (s s' : Process) : Prop := ∀ i < MAX_SHM, s'.references i = s.references i

instance (s s' : Process) : Decidable (SameReferences s s') :=
  inferInstanceAs (Decidable (∀ i < MAX_SHM, _))

variable {K : Kernel} {m : Machine} {s s' : Process} {l : List (Asked Process Call Call.Answer)}

theorem SameReferences.opens (h : SameReferences s s') {key : Int} :
    s'.Opens key ↔ s.Opens key := by
  refine exists_congr fun i => and_congr_right fun hi => ?_
  have hopen : ∀ p : Process, p.Valid i ∧ (p.shmem_array i).key = key ↔
      (p.references i).map Prod.fst = some key := fun p => by
    by_cases hv : p.Valid i
    · simp [references_some hv, hv]
    · simp [references_none hv, hv]
  rw [hopen, hopen, h i hi]

/-! ### `rtapi_init` -/

/-- What `rtapi_init` leaves: it has no handle of the UUID segment, it has counted the one that was
open, or it has opened one. -/
inductive Takes (s : Process) (r : Int) (s' : Process) : Prop
  | refused : r < 0 → ¬ s'.Opens UUID_KEY → ¬ s.Opens UUID_KEY → SameReferences s s' →
      Takes s r s'
  | again {i : Nat} : i < MAX_SHM → s.Valid i → (s.shmem_array i).key = UUID_KEY →
      s'.uuid_mem_id = i → (∀ j, j ≠ i → s'.shmem_array j = s.shmem_array j) →
      s'.shmem_array i = { s.shmem_array i with count := toInt32 ((s.shmem_array i).count + 1) } →
      Takes s r s'
  | first {i : Nat} : i < MAX_SHM → ¬ s.Opens UUID_KEY → ¬ s.Valid i → s'.uuid_mem_id = i →
      (∀ j, j ≠ i → s'.shmem_array j = s.shmem_array j) → s'.Valid i →
      (s'.shmem_array i).key = UUID_KEY → (s'.shmem_array i).count = 1 →
      (s'.shmem_array i).state = .active → Takes s r s'

/-- `rtapi_shmem_new` of a key whose handle is open counts it. -/
theorem rtapi_shmem_new_again {key : Int} (h : s.Opens key) (h₀ : key ≠ 0) (module_id : Int)
    {size : Nat} (hsize : size ≠ 0) :
    Every (rtapi_shmem_new key module_id size) s l fun _ r s' =>
      ∃ i < MAX_SHM, r = i ∧ s.Valid i ∧ (s.shmem_array i).key = key ∧
        s' = s.setSlot i { s.shmem_array i with
          count := toInt32 ((s.shmem_array i).count + 1) } := by
  unfold rtapi_shmem_new
  refine .ite (fun e => absurd e h₀) fun _ => .ite (fun e => absurd e hsize) fun _ => ?_
  rw [every_bind, every_get]
  rcases hs : scan s.shmem_array key MAX_SHM 0 none with i | o
  · obtain ⟨hi, hv, hk⟩ := scan_hit hs
    exact ⟨i, by omega, rfl, hv, hk, rfl⟩
  · obtain ⟨i, hi, hv, hk⟩ := h
    exact absurd hk ((scan_miss hs).1 i (Nat.zero_le i) (by omega) hv)

theorem not_opens_of_slots {i : Nat} {key : Int} (hs : Slotted i s s') (hv : ¬ s'.Valid i)
    (h : ¬ s.Opens key) : ¬ s'.Opens key := by
  rintro ⟨j, hj, hvj, hk⟩
  have hne : j ≠ i := fun e => hv (e ▸ hvj)
  rw [hs.others j hne] at hk
  exact h ⟨j, hj, (valid_slot (hs.others j hne)).mp hvj, hk⟩

/-- The handle of the UUID segment, before `rtapi_init` has read the counter. -/
theorem uuid_new_takes (h : Separate s) :
    Every (rtapi_shmem_new UUID_KEY 0 UUID_SIZE) s l fun _ id s₁ =>
      (id < 0 ∧ ∀ r s', r < 0 → s'.shmem_array = s₁.shmem_array → Takes s r s') ∨
      ∃ i < MAX_SHM, id = (i : Int) ∧ s₁.Valid i ∧ (s₁.shmem_array i).state = .active ∧
        ∀ r s', s'.uuid_mem_id = (i : Int) → s'.shmem_array = s₁.shmem_array → Takes s r s' := by
  by_cases hopen : s.Opens UUID_KEY
  · refine (rtapi_shmem_new_again hopen (by decide) 0 (by decide)).mono
      fun _ id s₁ ⟨i, hi, hid, hv, hk, hs₁⟩ => ?_
    have hslot : s₁.shmem_array i = { s.shmem_array i with
        count := toInt32 ((s.shmem_array i).count + 1) } := by
      rw [hs₁]
      exact s.setSlot_self i _
    refine .inr ⟨i, hi, hid, ?_, ?_, fun r s' hid' hs' => .again hi hv hk hid' (fun j hj => ?_) ?_⟩
    · unfold Process.Valid
      rw [hslot]
      exact hv
    · rw [hslot]
      exact h.active i hv
    · rw [hs', hs₁]
      exact s.setSlot_of_ne hj _
    · rw [hs', hslot]
  refine (rtapi_shmem_new_spec UUID_KEY 0 UUID_SIZE).mono fun _ id s₁ hout => ?_
  have refused : id < 0 → ¬ s₁.Opens UUID_KEY → SameReferences s s₁ →
      id < 0 ∧ ∀ r s', r < 0 → s'.shmem_array = s₁.shmem_array → Takes s r s' :=
    fun hneg hno hsame => ⟨hneg, fun r s' hr hs' => by
      have hat : SameReferences s₁ s' := fun j _ => references_slot (congrFun hs' j)
      exact .refused hr (fun ho => hno (hat.opens.mp ho)) hopen fun j hj =>
        (hat j hj).trans (hsame j hj)⟩
  rcases hout with ⟨hneg, rfl, -⟩ | ⟨i, hi, -, hv, hk, -⟩ | ⟨i, hi, hv, -, hs, -, hout⟩
  · exact .inl (refused hneg hopen fun _ _ => rfl)
  · exact absurd ⟨i, hi, hv, hk⟩ hopen
  rcases hout with ⟨hneg, hv', -⟩ | ⟨a, hid, -, -, hslot⟩
  · refine .inl (refused hneg (not_opens_of_slots hs hv' hopen) fun j _ => ?_)
    by_cases hj : j = i
    · rw [hj, references_none hv', references_none hv]
    · exact references_slot (hs.others j hj)
  · have hv' : s₁.Valid i := by
      unfold Process.Valid
      rw [hslot]
    have hstate : (s₁.shmem_array i).state = .active := by rw [hslot]
    refine .inr ⟨i, hi, hid, hv', hstate, fun r s' hid' hs' => ?_⟩
    refine .first hi hopen hv hid' (fun j hj => ?_) ((valid_slot (congrFun hs' i)).mpr hv') ?_ ?_ ?_
    · rw [hs']
      exact hs.others j hj
    · rw [hs', hslot]
    · rw [hs', hslot]
    · rw [hs', hstate]

/-- **`rtapi_init`.** -/
theorem rtapi_init_takes (h : Separate s) (modname : CStr) :
    Every (rtapi_init modname) s l fun _ r s' => Takes s r s' := by
  have hE : -EINVAL < 0 := by decide
  unfold Uspace.rtapi_init
  rw [every_bind]
  refine (uuid_new_takes h).mono fun l₁ id s₁ hout => ?_
  rw [every_bind, every_modify]
  rcases hout with ⟨hneg, htakes⟩ | ⟨i, hi, rfl, hv, ha, htakes⟩
  · refine .ite (fun _ => ?_) fun hpos => absurd hneg hpos
    unfold Uspace.rtapi_exit
    rw [every_bind, every_bind, every_get, every_bind]
    refine (rtapi_shmem_delete_negative (s := { s₁ with uuid_mem_id := id }) hneg 0).mono
      fun _ _ s₂ ⟨_, hs₂⟩ => ?_
    subst hs₂
    exact htakes _ _ hE rfl
  refine .ite (fun hneg => absurd hneg (by omega)) fun _ => ?_
  rw [every_bind]
  refine (rtapi_shmem_getptr_spec (i : Int)).mono fun _ p s₂ ⟨hs₂, _, _, hp⟩ => ?_
  subst hs₂
  obtain rfl := hp i rfl hi hv ha
  refine .ite (fun h => absurd h (show ¬ (0 : Int) < 0 by decide)) fun _ => ?_
  rw [every_bind, every_modify, every_bind, every_modify, every_bind, every_get, every_pure]
  by_cases hd : s₁.uuid_data = 0
  · simp only [if_pos hd]
    exact htakes _ _ rfl rfl
  · simp only [if_neg hd]
    exact htakes _ _ rfl rfl

/-- The count has changed when references came, fewer than a word can count. -/
theorem toInt32_add_ne (n : Int) {k : Int} (hk : 0 < k) (hlt : k < 2 ^ 32) : toInt32 (n + k) ≠ n := by
  intro h
  obtain ⟨q, hq⟩ : (4294967296 : Int) ∣ toInt32 (n + k) - (n + k) := Int.dvd_bmod_sub_self
  omega

theorem toInt32_succ_ne (n : Int) : toInt32 (n + 1) ≠ n :=
  toInt32_add_ne n (by decide) (by decide)

namespace Takes

variable {r : Int}

/-- What a handle that was opened has. -/
theorem opened (h : Takes s r s') (hopen : s'.Opens UUID_KEY) : ¬ SameReferences s s' := by
  intro hsame
  cases h with
  | refused _ hno _ _ => exact hno hopen
  | @again i hi hv hk _ _ hslot =>
      have hv' : s'.Valid i := by
        unfold Process.Valid
        rw [hslot]
        exact hv
      have he := hsame i hi
      rw [references_some hv, references_some hv', hslot] at he
      exact toInt32_succ_ne _ (Prod.mk.inj (Option.some.inj he)).2
  | first _ hno _ _ _ _ _ _ _ => exact hno (hsame.opens.mp hopen)

theorem closed (h : Takes s r s') (hno : ¬ s'.Opens UUID_KEY) :
    r < 0 ∧ ¬ s.Opens UUID_KEY ∧ SameReferences s s' := by
  cases h with
  | refused hr _ hno' hsame => exact ⟨hr, hno', hsame⟩
  | @again i hi hv hk _ _ hslot =>
      refine absurd ⟨i, hi, ?_, by rw [hslot]; exact hk⟩ hno
      unfold Process.Valid
      rw [hslot]
      exact hv
  | first hi _ _ _ _ hv' hk' _ _ => exact absurd ⟨_, hi, hv', hk'⟩ hno

/-- The handle that was taken. -/
theorem slot (h : Takes s r s') (hs : Separate s) (hr : ¬ r < 0) :
    ∃ i < MAX_SHM, s'.uuid_mem_id = (i : Int) ∧ s'.Valid i ∧ (s'.shmem_array i).key = UUID_KEY ∧
      (∀ j, s'.Valid j → (s'.shmem_array j).state = .active) ∧
      (∀ j, j ≠ i → s'.shmem_array j = s.shmem_array j) ∧
      (s.Valid i ∧ (s.shmem_array i).key = UUID_KEY ∧ s'.shmem_array i = { s.shmem_array i with
          count := toInt32 ((s.shmem_array i).count + 1) } ∨
        ¬ s.Opens UUID_KEY ∧ ¬ s.Valid i ∧ (s'.shmem_array i).count = 1) := by
  have hactive : ∀ {i : Nat}, (∀ j, j ≠ i → s'.shmem_array j = s.shmem_array j) →
      (s'.shmem_array i).state = .active → ∀ j, s'.Valid j → (s'.shmem_array j).state = .active := by
    intro i hothers hi j hj
    by_cases hji : j = i
    · rw [hji, hi]
    · rw [hothers j hji]
      exact hs.active j ((valid_slot (hothers j hji)).mp hj)
  cases h with
  | refused hneg _ _ _ => exact absurd hneg hr
  | @again i hi hv hk hid hothers hslot =>
      refine ⟨i, hi, hid, ?_, by rw [hslot]; exact hk, hactive hothers ?_, hothers,
        .inl ⟨hv, hk, hslot⟩⟩
      · unfold Process.Valid
        rw [hslot]
        exact hv
      · rw [hslot]
        exact hs.active i hv
  | @first i hi hno hv hid hothers hv' hk' hc ha =>
      exact ⟨i, hi, hid, hv', hk', hactive hothers ha, hothers, .inr ⟨hno, hv, hc⟩⟩

end Takes

/-! ### And back -/

/-- `rtapi_exit` of the handle `i`: one reference less, or closed. -/
theorem rtapi_exit_slot {i : Nat} (hi : i < MAX_SHM) (hid : s.uuid_mem_id = i) (hv : s.Valid i)
    (ha : ∀ i, s.Valid i → (s.shmem_array i).state = .active) (module_id : Int) :
    Every (rtapi_exit module_id) s l fun _ _ s' =>
      (∀ j, j ≠ i → s'.shmem_array j = s.shmem_array j) ∧
      (0 < toInt32 ((s.shmem_array i).count - 1) ∧ s'.shmem_array i = { s.shmem_array i with
          count := toInt32 ((s.shmem_array i).count - 1) } ∨
        ¬ 0 < toInt32 ((s.shmem_array i).count - 1) ∧ ¬ s'.Valid i) := by
  unfold rtapi_exit
  rw [every_bind, every_get, every_bind, hid]
  refine (rtapi_shmem_delete_spec (i : Int) module_id ha).mono fun l' r s' hout => ?_
  rcases hout with ⟨-, -, hno⟩ | ⟨j, -, hij, -, hout⟩
  · exact absurd hv (hno i rfl hi)
  obtain rfl : i = j := by omega
  rcases hout with ⟨hc, -, rfl⟩ | ⟨hc, hs, hv', -⟩
  · exact ⟨fun j hj => s.setSlot_of_ne hj _, .inl ⟨hc, s.setSlot_self i _⟩⟩
  · exact ⟨hs.others, .inr ⟨hc, hv'⟩⟩

/-- A count that is given back is as before when it is that of an `int`, and positive. -/
theorem toInt32_back {n : Int} :
    0 < toInt32 (toInt32 (n + 1) - 1) ∧ toInt32 (toInt32 (n + 1) - 1) = n ↔
      0 < n ∧ n < 2 ^ 31 := by
  have hback : toInt32 (toInt32 (n + 1) - 1) = toInt32 n := by
    have : toInt32 (toInt32 (n + 1) - 1) = toInt32 (n + 1 - 1) := Int.bmod_sub_bmod
    rw [this, Int.add_sub_cancel]
  rw [hback]
  constructor
  · rintro ⟨hpos, he⟩
    have hlt : toInt32 n < 2 ^ 31 := by
      have : toInt32 n < (2 ^ 32 + 1) / 2 := Int.bmod_lt (by decide)
      omega
    omega
  · rintro ⟨hpos, hlt⟩
    rw [toInt32_eq (by omega) hlt]
    exact ⟨hpos, rfl⟩

/-- RTAPI after an `rtapi_init` whose number is given back. -/
def taken_back {σ : Type} (R : Rtapi σ) (name : CStr) (rt : σ) : σ :=
  if (R.init name rt).1 < 0 then (R.init name rt).2
  else (R.exit (R.init name rt).1 (R.init name rt).2).2

/-- The count of the UUID handle is that of an `int`, and positive. -/
def Process.Countable (s : Process) : Prop :=
  ∀ i < MAX_SHM, s.Valid i → (s.shmem_array i).key = UUID_KEY →
    0 < (s.shmem_array i).count ∧ (s.shmem_array i).count < 2 ^ 31

instance (s : Process) : Decidable s.Countable :=
  inferInstanceAs (Decidable (∀ i < MAX_SHM, (s.shmem_array i).magic = SHMEM_MAGIC → _ → _ ∧ _))

variable (K) in
/-- What `rtapi_init` takes is given back: it does not fail with the UUID segment open, and the
references to the segment are few enough to be counted. -/
structure Returnable (name : CStr) (m : Machine) : Prop where
  answered : ((rtapi K).init name m).1 < 0 → ¬ ((rtapi K).init name m).2.process.Opens UUID_KEY
  counted : m.process.Countable

variable (K) in
theorem init_takes (h : Separate m.process) (name : CStr) :
    Takes m.process ((rtapi K).init name m).1 ((rtapi K).init name m).2.process :=
  perform_of_every (K := K) (m := m) (rtapi_init_takes (l := []) h name)

/-- The open handles are as before. -/
structure SameOpen (s s' : Process) : Prop where
  mem_id : s'.uuid_mem_id = s.uuid_mem_id
  slots : ∀ j, s.Valid j → s'.shmem_array j = s.shmem_array j
  closed : ∀ j, ¬ s.Valid j → ¬ s'.Valid j

theorem SameOpen.refl (s : Process) : SameOpen s s := ⟨rfl, fun _ _ => rfl, fun _ => id⟩

theorem SameOpen.references (h : SameOpen s s') (j : Nat) : s'.references j = s.references j := by
  by_cases hv : s.Valid j
  · exact references_slot (h.slots j hv)
  · rw [references_none hv, references_none (h.closed j hv)]

theorem Separate.back (hs : Separate s) {r : Int} (h : Takes s r s') (hr : ¬ r < 0) {s₁ : Process}
    (ho : SameOpen s' s₁) (module_id : Int) :
    Every (Uspace.rtapi_exit module_id) s₁ l fun _ _ s'' => SameReferences s s'' ↔ s.Countable := by
  obtain ⟨i, hi, hid, hv', hk', ha, hothers, hcase⟩ := h.slot hs hr
  have hslot₁ := ho.slots i hv'
  have ha₁ : ∀ j, s₁.Valid j → (s₁.shmem_array j).state = .active := fun j hj => by
    have hvj : s'.Valid j := not_not.mp fun hv => ho.closed j hv hj
    rw [ho.slots j hvj]
    exact ha j hvj
  refine (rtapi_exit_slot hi (ho.mem_id.trans hid) ((valid_slot hslot₁).mpr hv') ha₁ module_id).mono
    fun _ _ s'' ⟨hothers', hend⟩ => ?_
  rw [hslot₁] at hend
  have hj : ∀ j, j ≠ i → s''.references j = s.references j := fun j hj =>
    (references_slot (hothers' j hj)).trans ((ho.references j).trans (references_slot (hothers j hj)))
  -- the other handles are as before
  have hsame : SameReferences s s'' ↔ s''.references i = s.references i := by
    refine ⟨fun h => h i hi, fun h j _ => ?_⟩
    by_cases hji : j = i
    · rw [hji, h]
    · exact hj j hji
  rw [hsame]
  rcases hcase with ⟨hv, hk, hslot⟩ | ⟨hno, hv, hc⟩
  · have hiff : s.Countable ↔ 0 < (s.shmem_array i).count ∧ (s.shmem_array i).count < 2 ^ 31 := by
      refine ⟨fun h => h i hi hv hk, fun h j hj hvj hkj => ?_⟩
      obtain rfl := hs.unique j i hvj hv (hkj.trans hk.symm)
      exact h
    rw [hiff, ← toInt32_back, references_some hv]
    rw [hslot] at hend
    rcases hend with ⟨hpos, hslot'⟩ | ⟨hneg, hno⟩
    · have hv'' : s''.Valid i := by
        unfold Process.Valid
        rw [hslot']
        exact hv
      rw [references_some hv'', hslot']
      simp [hpos]
    · rw [references_none hno]
      exact iff_of_false nofun fun h => hneg h.1
  · refine iff_of_true ?_ fun j hj hvj hkj => absurd ⟨j, hj, hvj, hkj⟩ hno
    rw [references_none hv]
    rcases hend with ⟨hpos, -⟩ | ⟨-, hno⟩
    · rw [hc] at hpos
      exact absurd hpos (by decide)
    · exact references_none hno

/-- **What `rtapi_init` takes is given back** just when it is `Returnable`. -/
theorem taken_back_references (h : Separate m.process) (name : CStr) :
    SameReferences m.process (taken_back (rtapi K) name m).process ↔ Returnable K name m := by
  have ht := init_takes K h name
  unfold taken_back
  by_cases hneg : ((rtapi K).init name m).1 < 0
  · -- it failed, and kept what it had by then
    rw [if_pos hneg]
    constructor
    · intro hsame
      have hno : ¬ ((rtapi K).init name m).2.process.Opens UUID_KEY := fun hopen =>
        ht.opened hopen hsame
      exact ⟨fun _ => hno, fun i hi hv hk => absurd ⟨i, hi, hv, hk⟩ (ht.closed hno).2.1⟩
    · exact fun hret => (ht.closed (hret.answered hneg)).2.2
  · rw [if_neg hneg]
    have hback := perform_of_every (K := K) (m := ((rtapi K).init name m).2)
      (h.back (l := []) ht hneg (.refl _) ((rtapi K).init name m).1)
    exact hback.trans ⟨fun hc => ⟨fun hn => absurd hn hneg, hc⟩, fun hret => hret.counted⟩

theorem taken_back_tasks (name : CStr) :
    (taken_back (rtapi K) name m).process.task_array = m.process.task_array := by
  have hinit : ((rtapi K).init name m).2.process.task_array = m.process.task_array :=
    perform_of_every (SameTasks.rtapi_init name m.process [])
  unfold taken_back
  split_ifs
  · exact hinit
  · exact Eq.trans (perform_of_every (SameTasks.rtapi_exit _ _ [])) hinit

/-! ### A segment after it -/

/-- `rtapi_shmem_new` of another key after `rtapi_init`: it fails and `rtapi_exit` gives back what
`rtapi_init` took, or it has a handle, which it counts once more if it was open. -/
theorem shmem_new_after_init (h : Separate m.process) (name : CStr) {key : Int}
    (hk : key ≠ UUID_KEY) (size : Int) {id n : Int × Machine} (hid : id = (rtapi K).init name m)
    (hn : n = (rtapi K).shmem_new key id.1 size id.2) (hpos : ¬ id.1 < 0) :
    (n.1 < 0 ∧ (SameReferences m.process ((rtapi K).exit id.1 n.2).2.process ↔
        m.process.Countable)) ∨
      ∃ i : Nat, n.1 = i ∧ Keyed n.2.process ∧ n.2.process.Valid i ∧
        (n.2.process.shmem_array i).key = key ∧ ∀ c, m.process.references i = some (key, c) →
          (n.2.process.shmem_array i).count = toInt32 (c + 1) := by
  have ht : Takes m.process id.1 id.2.process := hid ▸ init_takes K h name
  have hinit : Keyed id.2.process ∧
      (∀ i, m.process.Foreign i → id.2.process.shmem_array i = m.process.shmem_array i) ∧
      (0 ≤ id.1 → ∃ i : Nat, id.2.process.uuid_mem_id = i ∧ id.2.process.Valid i) := by
    rw [hid]
    exact perform_of_every (K := K) (m := m) (h.rtapi_init (l := []) name)
  obtain ⟨hkeyed, hforeign, huuid⟩ := hinit
  have hcall : perform K (rtapi_shmem_new key id.1 size.toNat) id.2 = n := hn.symm
  have hkeyed' := perform_of_every (K := K) (m := id.2) (x := rtapi_shmem_new key id.1 _)
    (hkeyed.shmem_new (l := []) id.1 size.toNat (.inr (huuid (Int.not_lt.mp hpos))))
  have hnew := perform_of_every (K := K) (m := id.2)
    (hkeyed.separate.shmem_new (l := []) key id.1 size.toNat)
  rw [hcall] at hkeyed' hnew
  obtain ⟨-, hmem, -, ⟨hneg, hslots, hclosed⟩ | ⟨i, hi, hv, hkey, hcount⟩⟩ := hnew
  · exact .inl ⟨hneg, perform_of_every (K := K) (m := n.2)
      (h.back (l := []) ht hpos ⟨hmem, hslots, hclosed⟩ id.1)⟩
  refine .inr ⟨i, hi, hkeyed'.1, hv, hkey, fun c hc => hcount c ?_⟩
  -- `rtapi_init` left the handle that was open
  have hv₀ : m.process.Valid i := by
    by_contra hv₀
    rw [references_none hv₀] at hc
    cases hc
  have hkey₀ : (m.process.shmem_array i).key = key := by
    rw [references_some hv₀] at hc
    exact (Prod.mk.inj (Option.some.inj hc)).1
  exact (references_slot (hforeign i ⟨hv₀, by rw [hkey₀]; exact hk⟩)).trans hc

end RTS.Uspace

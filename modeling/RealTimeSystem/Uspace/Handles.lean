import RealTimeSystem.Uspace.Tasks

/-!
# RTAPI — handles are counted

What the functions on shared memory leave of the handle table, whatever the system calls answer, and
what holds after any sequence of them.

A `Tally` is kept beside the table: for each slot the references that were opened and not closed
since it last became valid, and the address that its `shmat` answered.  `Counted` says that the
table agrees with the tally.
-/

namespace RTS.Uspace

open RTS.Support

/-! ### The walk over the handles -/

/-- The slot holds an open handle. -/
def Process.Valid (s : Process) (i : Nat) : Prop := (s.shmem_array i).magic = SHMEM_MAGIC

section
variable {t : Nat → Handle} {key : Int} {n i : Nat} {shmem : Option Nat}

theorem scan_hit {j : Nat} (h : scan t key n i shmem = .inl j) :
    j < i + n ∧ (t j).magic = SHMEM_MAGIC ∧ (t j).key = key := by
  induction n generalizing i shmem with
  | zero => cases h
  | succ n ih =>
      unfold scan at h
      split_ifs at h with hm hk
      · obtain rfl := Sum.inl.inj h
        exact ⟨by omega, hm, hk⟩
      · obtain ⟨h₁, h₂⟩ := ih h
        exact ⟨by omega, h₂⟩
      · obtain ⟨h₁, h₂⟩ := ih h
        exact ⟨by omega, h₂⟩

theorem scan_miss {o : Option Nat} (h : scan t key n i shmem = .inr o) :
    (∀ j, i ≤ j → j < i + n → (t j).magic = SHMEM_MAGIC → (t j).key ≠ key) ∧
      ∀ j, o = some j → shmem = some j ∨ j < i + n ∧ (t j).magic ≠ SHMEM_MAGIC := by
  induction n generalizing i shmem with
  | zero =>
      obtain rfl := Sum.inr.inj h
      exact ⟨fun j h₁ h₂ => by omega, fun j hj => .inl hj⟩
  | succ n ih =>
      unfold scan at h
      split_ifs at h with hm hk
      · obtain ⟨h₁, h₂⟩ := ih h
        refine ⟨fun j hij hj hv => ?_, fun j hj => (h₂ j hj).imp_right fun h => ⟨by omega, h.2⟩⟩
        by_cases he : j = i
        · rw [he]; exact hk
        · exact h₁ j (by omega) (by omega) hv
      · obtain ⟨h₁, h₂⟩ := ih h
        refine ⟨fun j hij hj hv => ?_, fun j hj => ?_⟩
        · by_cases he : j = i
          · exact absurd (he ▸ hv) hm
          · exact h₁ j (by omega) (by omega) hv
        · rcases h₂ j hj with h' | h'
          · rcases shmem with _ | x
            · obtain rfl := Option.some.inj h'
              exact .inr ⟨by omega, hm⟩
            · exact .inl h'
          · exact .inr ⟨by omega, h'.2⟩

end

/-! ### One call -/

variable {s s' : Process} {l : List (Asked Process Call Call.Answer)}

/-- Only the slot `i` and the counters in memory may have changed. -/
structure Slotted (i : Nat) (s s' : Process) : Prop where
  others : ∀ j, j ≠ i → s'.shmem_array j = s.shmem_array j
  tasks : s'.task_array = s.task_array
  period : s'.period = s.period
  mem_id : s'.uuid_mem_id = s.uuid_mem_id
  data : s'.uuid_data = s.uuid_data

theorem Slotted.refl (i : Nat) (s : Process) : Slotted i s s := ⟨fun _ _ => rfl, rfl, rfl, rfl, rfl⟩

theorem Slotted.onSlot {i : Nat} (h : Slotted i s s') (x : Handle) : Slotted i s (s'.setSlot i x) :=
  ⟨fun j hj => (s'.setSlot_of_ne hj x).trans (h.others j hj), h.tasks, h.period, h.mem_id, h.data⟩

/-- The mapping a question was answered with. -/
def mapped : List (Asked Process Call Call.Answer) → Option Addr
  | [] => none
  | ⟨_, .shmat _, .ok m⟩ :: _ => some m.addr
  | _ :: l => mapped l

/-- The mappings that were detached, newest first. -/
def detached : List (Asked Process Call Call.Answer) → List Addr
  | [] => []
  | ⟨_, .shmdt mem, _⟩ :: l => mem :: detached l
  | _ :: l => detached l

theorem every_onSlot {i : Nat} {f : Handle → Handle}
    {Q : List (Asked Process Call Call.Answer) → Unit → Process → Prop} :
    Every (onSlot i f) s l Q ↔ Q l () (s.setSlot i (f (s.shmem_array i))) := Iff.rfl

/-- A `shmget` that failed. -/
def Failed : Asked Process Call Call.Answer → Prop
  | ⟨_, .shmget _ _, .error _⟩ => True
  | _ => False

/-- A question that touches no mapping. -/
def Unmoving : Asked Process Call Call.Answer → Prop
  | ⟨_, .getpid, _⟩ => True
  | ⟨_, .geteuid, _⟩ => True
  | ⟨_, .shmget _ _, _⟩ => True
  | ⟨_, .shm_stat _, _⟩ => True
  | ⟨_, .shm_set _, _⟩ => True
  | _ => False

theorem Failed.unmoving {x : Asked Process Call Call.Answer} (h : Failed x) : Unmoving x := by
  unfold Failed at h
  split at h
  · exact trivial
  · exact h.elim

/-- What does not see such questions does not see a list of them. -/
theorem skip_all {β : Type} {f : List (Asked Process Call Call.Answer) → β}
    {P : Asked Process Call Call.Answer → Prop} (hf : ∀ x l, P x → f (x :: l) = f l)
    {xs : List (Asked Process Call Call.Answer)} (h : ∀ x ∈ xs, P x) : f (xs ++ l) = f l := by
  induction xs with
  | nil => rfl
  | cons x xs ih =>
      rw [List.cons_append, hf x _ (h x List.mem_cons_self)]
      exact ih fun y hy => h y (List.mem_cons_of_mem x hy)

theorem mapped_unmoving (x : Asked Process Call Call.Answer)
    (l : List (Asked Process Call Call.Answer)) (h : Unmoving x) : mapped (x :: l) = mapped l := by
  obtain ⟨_, c, _⟩ := x
  cases c <;> first | rfl | exact h.elim

theorem detached_unmoving (x : Asked Process Call Call.Answer)
    (l : List (Asked Process Call Call.Answer)) (h : Unmoving x) : detached (x :: l) = detached l := by
  obtain ⟨_, c, _⟩ := x
  cases c <;> first | rfl | exact h.elim

/-- `shmget_again` fails, or gives a segment after questions that failed. -/
theorem shmget_again_asks (key size : Int) (n : Nat) :
    Every (shmget_again key size n) s l fun l' r s' => s' = s ∧ ∃ fails, (∀ x ∈ fails, Failed x) ∧
      ((∃ e, r = .error e ∧ l' = fails ++ l) ∨
        ∃ id, r = .ok id ∧ l' = ⟨s, .shmget key size, .ok id⟩ :: (fails ++ l)) := by
  induction n generalizing l with
  | zero =>
      rintro (e | id)
      · exact ⟨rfl, [_], by simp [Failed], .inl ⟨e, rfl, rfl⟩⟩
      · exact ⟨rfl, [], by simp, .inr ⟨id, rfl, rfl⟩⟩
  | succ n ih =>
      unfold shmget_again
      rw [every_bind, every_ask]
      rintro (e | id)
      · refine .ite (fun _ => ih.mono fun l' r s' ⟨hs, fails, hf, h⟩ => ⟨hs, ?_⟩) fun _ => ?_
        · refine ⟨fails ++ [⟨s, .shmget key size, .error e⟩], ?_, by simpa using h⟩
          simpa [or_imp, forall_and, Failed] using hf
        · exact ⟨rfl, [_], by simp [Failed], .inl ⟨e, rfl, rfl⟩⟩
      · exact ⟨rfl, [], by simp, .inr ⟨id, rfl, rfl⟩⟩

/-- What `shmem_create` asks, and what it leaves: `shmget` fails, or it gives the segment `id` and
`shmat` fails, or neither does. -/
inductive Filling (i : Nat) (key : Int) (size : Nat) (s : Process)
    (l : List (Asked Process Call Call.Answer)) :
    List (Asked Process Call Call.Answer) → Int → Process → Prop
  | ungot (pid : Int) (e : Errno) {fails : List (Asked Process Call Call.Answer)}
      (hf : ∀ x ∈ fails, Failed x) :
      Filling i key size s l (fails ++ ⟨s, .getpid, pid⟩ :: l) (-e.val)
        (s.setSlot i { s.shmem_array i with owner_pid := pid, id := -1, error_code := e.val })
  | unmapped (pid : Int) (id : Nat) (e : Errno) (a : Except Errno Unit) (p q q' : Process)
      {idle : List (Asked Process Call Call.Answer)} (hi : ∀ x ∈ idle, Unmoving x)
      (hg : ⟨p, .shmget key (toInt32 size), .ok id⟩ ∈ idle) :
      Filling i key size s l (⟨q', .shm_rmid id, a⟩ :: ⟨q, .shmat id, .error e⟩ :: (idle ++ l))
        (-e.val)
        (s.setSlot i { s.shmem_array i with
          owner_pid := pid, error_code := e.val, id := -1, mem := 0, state := .error })
  | active (pid : Int) (id : Nat) (m : Mapping) (p q : Process)
      {idle : List (Asked Process Call Call.Answer)} (hi : ∀ x ∈ idle, Unmoving x)
      (hg : ⟨p, .shmget key (toInt32 size), .ok id⟩ ∈ idle) :
      Filling i key size s l (⟨q, .shmat id, .ok m⟩ :: (idle ++ l)) i
        ({ s with uuid := Function.update s.uuid m.addr m.uuid }.setSlot i
          { s.shmem_array i with
            owner_pid := pid, error_code := 0, id := id, mem := m.addr, state := .active
            magic := SHMEM_MAGIC, size := size, key := key, count := 1 })

theorem shmem_create_asks (i : Nat) (key : Int) (size : Nat) :
    Every (shmem_create i key size) s l fun l' r s' => Filling i key size s l l' r s' := by
  unfold shmem_create
  rw [every_bind, every_ask]
  intro pid
  rw [every_bind, every_onSlot, every_bind]
  refine (shmget_again_asks key _ 5).mono fun l₁ r s₁ ⟨hs₁, fails, hf, h⟩ => ?_
  subst hs₁
  rcases h with ⟨e, rfl, rfl⟩ | ⟨id, rfl, rfl⟩
  · rw [every_bind, every_onSlot]
    simpa using Filling.ungot pid e hf
  rw [every_bind, every_onSlot, every_bind, every_ask]
  intro stat
  rw [every_bind, every_ask]
  intro euid
  simp only [Process.setSlot_self, Process.setSlot_setSlot]
  have hfails : ∀ x ∈ fails, Unmoving x := fun x hx => (hf x hx).unmoving
  -- the end, after the questions `perms` about the permissions
  have hattach : ∀ perms p, (∀ x ∈ perms, Unmoving x) →
      Every (shmem_attach i key size id) (s.setSlot i { s.shmem_array i with
        owner_pid := pid, error_code := 0, id := id, state := .created })
        (perms ++ ⟨p, .shmget key (toInt32 size), .ok id⟩ :: (fails ++ ⟨s, .getpid, pid⟩ :: l))
        fun l' r s' => Filling i key size s l l' r s' := by
    intro perms p hperms
    have hidle : ∀ x ∈ perms ++ ⟨p, .shmget key (toInt32 size), .ok id⟩ ::
        (fails ++ [⟨s, .getpid, pid⟩]), Unmoving x := by
      simp only [List.mem_append, List.mem_cons, List.not_mem_nil, or_false]
      rintro x (hx | rfl | hx | rfl)
      · exact hperms x hx
      · exact trivial
      · exact hfails x hx
      · exact trivial
    unfold shmem_attach
    rw [every_bind, every_ask]
    rintro (e | m)
    · rw [every_bind, every_onSlot, every_bind, every_ask]
      intro a
      rw [every_bind, every_onSlot]
      simpa using Filling.unmapped pid id e a p _ _ hidle (by simp)
    · rw [every_bind, every_modify, every_bind, every_onSlot, every_bind, every_onSlot]
      simpa [Process.setSlot] using Filling.active pid id m p _ hidle (by simp)
  refine .ite (fun _ => ?_) fun _ =>
    hattach [⟨_, .geteuid, euid⟩, ⟨_, .shm_stat id, stat⟩] _ (by simp [Unmoving])
  rw [every_bind, every_ask]
  intro set
  exact hattach [⟨_, .shm_set id, set⟩, ⟨_, .geteuid, euid⟩, ⟨_, .shm_stat id, stat⟩] _
    (by simp [Unmoving])

/-- What opening the slot `i` comes to. -/
def Opened (i : Nat) (key : Int) (l : List (Asked Process Call Call.Answer)) (s : Process)
    (l' : List (Asked Process Call Call.Answer)) (r : Int) (s' : Process) : Prop :=
  Slotted i s s' ∧ detached l' = detached l ∧
    ((r < 0 ∧ ¬ s'.Valid i ∧ s'.uuid = s.uuid) ∨
      ∃ m : Mapping, r = i ∧ mapped l' = some m.addr ∧
        s'.uuid = Function.update s.uuid m.addr m.uuid ∧
        s'.shmem_array i = { s'.shmem_array i with
          magic := SHMEM_MAGIC, key := key, count := 1, mem := m.addr, state := .active })

theorem not_valid_setSlot {i : Nat} {h : Handle} (hm : h.magic ≠ SHMEM_MAGIC) :
    ¬ (s.setSlot i h).Valid i := by
  unfold Process.Valid
  rwa [Process.setSlot_self]

/-- An error number is positive. -/
theorem Errno.neg (e : Errno) : -e.val < 0 := by
  have := e.pos
  omega

theorem shmem_create_spec {i : Nat} (hi : ¬ s.Valid i) (key : Int) (size : Nat) :
    Every (shmem_create i key size) s l fun l' r s' => Opened i key l s l' r s' := by
  have hm : (s.shmem_array i).magic ≠ SHMEM_MAGIC := hi
  refine (shmem_create_asks i key size).mono fun l' r s' h => ?_
  cases h with
  | ungot pid e hf =>
      refine ⟨(Slotted.refl i s).onSlot _, ?_, .inl ⟨e.neg, not_valid_setSlot hm, rfl⟩⟩
      exact skip_all detached_unmoving fun x hx => (hf x hx).unmoving
  | unmapped pid id e a p q q' hidle hg =>
      refine ⟨(Slotted.refl i s).onSlot _, ?_, .inl ⟨e.neg, not_valid_setSlot hm, rfl⟩⟩
      exact skip_all detached_unmoving hidle
  | active pid id m p q hidle hg =>
      refine ⟨⟨fun j hj => Process.setSlot_of_ne _ hj _, rfl, rfl, rfl, rfl⟩, ?_,
        .inr ⟨m, rfl, rfl, rfl, ?_⟩⟩
      · exact skip_all detached_unmoving hidle
      · simp

/-- A handle that is not opened was not mapped. -/
theorem shmem_create_mapped (i : Nat) (key : Int) (size : Nat) :
    Every (shmem_create i key size) s l fun l' r _ => r < 0 → mapped l' = mapped l := by
  refine (shmem_create_asks i key size).mono fun l' r s' h hr => ?_
  cases h with
  | ungot pid e hf => exact skip_all mapped_unmoving fun x hx => (hf x hx).unmoving
  | unmapped pid id e a p q q' hidle hg => exact skip_all mapped_unmoving hidle
  | active pid id m p q hidle hg => exact absurd hr (Int.not_lt.mpr (Int.natCast_nonneg i))

/-- **`rtapi_shmem_new`.**  It refuses, opens a handle a second time, or opens a free slot. -/
theorem rtapi_shmem_new_spec (key module_id : Int) (size : Nat) :
    Every (rtapi_shmem_new key module_id size) s l fun l' r s' =>
      (r < 0 ∧ s' = s ∧ l' = l) ∨
      (∃ i < MAX_SHM, r = (i : Int) ∧ s.Valid i ∧ (s.shmem_array i).key = key ∧ l' = l ∧
        s' = s.setSlot i { s.shmem_array i with
          count := toInt32 ((s.shmem_array i).count + 1) }) ∨
      ∃ i < MAX_SHM, ¬ s.Valid i ∧ (∀ j < MAX_SHM, s.Valid j → (s.shmem_array j).key ≠ key) ∧
        Opened i key l s l' r s' := by
  unfold rtapi_shmem_new
  refine .ite (fun _ => .inl ⟨by decide, rfl, rfl⟩) fun _ => ?_
  refine .ite (fun _ => .inl ⟨by decide, rfl, rfl⟩) fun _ => ?_
  rw [every_bind, every_get]
  rcases hs : scan s.shmem_array key MAX_SHM 0 none with i | _ | i
  · obtain ⟨hi, hv, hk⟩ := scan_hit hs
    rw [Nat.zero_add] at hi
    exact .inr (.inl ⟨i, hi, rfl, hv, hk, rfl, rfl⟩)
  · exact .inl ⟨by decide, rfl, rfl⟩
  · obtain ⟨hmiss, hfree⟩ := scan_miss hs
    rcases hfree i rfl with h | ⟨hi, hv⟩
    · cases h
    rw [Nat.zero_add] at hi
    refine (shmem_create_spec hv key size).mono fun l' r s' ho => .inr (.inr ⟨i, hi, hv, ?_, ho⟩)
    exact fun j hj hval => hmiss j (Nat.zero_le j) (by omega) hval

/-- **`rtapi_shmem_getptr`.** -/
theorem rtapi_shmem_getptr_spec (handle : Int) :
    Every (rtapi_shmem_getptr handle) s l fun l' r s' => s' = s ∧ l' = l ∧
      (r.1 ≠ -EACCES ∨ s.Valid handle.toNat ∧ (s.shmem_array handle.toNat).state ≠ .active) ∧
      ∀ i : Nat, handle = i → i < MAX_SHM → s.Valid i → (s.shmem_array i).state = .active →
        r = (0, (s.shmem_array i).mem) := by
  have hE : -EINVAL ≠ -EACCES := by decide
  unfold rtapi_shmem_getptr
  refine .ite (fun hr => ⟨rfl, rfl, .inl hE, fun i hi hlt => by omega⟩) fun _ => ?_
  rw [every_bind, every_get]
  have hn : ∀ i : Nat, handle = i → handle.toNat = i := fun i hi => by omega
  refine .ite (fun hm => ⟨rfl, rfl, .inl hE, fun i hi _ hv => ?_⟩) fun hm => ?_
  · rw [hn i hi] at hm
    exact absurd hv hm
  refine .ite (fun hst => ⟨rfl, rfl, .inr ⟨not_not.mp hm, hst.1⟩, fun i hi _ _ ha => ?_⟩) fun _ => ?_
  · rw [hn i hi] at hst
    exact absurd ha hst.1
  · exact ⟨rfl, rfl, .inl (show (0 : Int) ≠ -EACCES by decide), fun i hi _ _ _ => by rw [hn i hi]⟩

theorem shmem_detach_spec {i : Nat} (ha : (s.shmem_array i).state = .active) :
    Every (shmem_detach i) s l fun l' _ s' => Slotted i s s' ∧ s'.uuid = s.uuid ∧
      detached l' = (s.shmem_array i).mem :: detached l := by
  unfold shmem_detach
  rw [every_bind, every_get]
  refine .ite (fun _ => ?_) fun h => absurd (.inl ha) h
  rw [every_bind, every_ask]
  rintro (e | _)
  · exact ⟨(Slotted.refl i s).onSlot _, rfl, rfl⟩
  · exact ⟨(Slotted.refl i s).onSlot _, rfl, rfl⟩

theorem shmem_destroy_spec {s₀ : Process} {i : Nat} (h : Slotted i s₀ s) (hu : s.uuid = s₀.uuid) :
    Every (shmem_destroy i) s l fun l' _ s' => Slotted i s₀ s' ∧ s'.uuid = s₀.uuid ∧
      detached l' = detached l := by
  unfold shmem_destroy
  rw [every_bind, every_get, every_bind, every_ask]
  rintro (e | nattch)
  · exact ⟨h.onSlot _, hu, rfl⟩
  · refine .ite (fun _ => ?_) fun _ => ⟨h, hu, rfl⟩
    rw [every_bind, every_ask]
    rintro (e | _)
    · exact ⟨h.onSlot _, hu, rfl⟩
    · exact ⟨h.onSlot _, hu, rfl⟩

/-- **`rtapi_shmem_delete`.**  It refuses, counts one reference less, or closes the slot and
detaches its mapping. -/
theorem rtapi_shmem_delete_spec (handle module_id : Int)
    (ha : ∀ i, s.Valid i → (s.shmem_array i).state = .active) :
    Every (rtapi_shmem_delete handle module_id) s l fun l' _ s' =>
      (s' = s ∧ l' = l ∧ ∀ i : Nat, handle = i → i < MAX_SHM → ¬ s.Valid i) ∨
      ∃ i < MAX_SHM, handle = (i : Int) ∧ s.Valid i ∧
        (0 < toInt32 ((s.shmem_array i).count - 1) ∧ l' = l ∧
            s' = s.setSlot i { s.shmem_array i with
              count := toInt32 ((s.shmem_array i).count - 1) } ∨
          ¬ 0 < toInt32 ((s.shmem_array i).count - 1) ∧ Slotted i s s' ∧ ¬ s'.Valid i ∧
            s'.uuid = s.uuid ∧ detached l' = (s.shmem_array i).mem :: detached l) := by
  unfold rtapi_shmem_delete
  refine .ite (fun hr => .inl ⟨rfl, rfl, fun i hi hlt => by omega⟩) fun hr => ?_
  rw [every_bind, every_get]
  have hn : ∀ i : Nat, handle = i → handle.toNat = i := fun i hi => by omega
  refine .ite (fun hm => .inl ⟨rfl, rfl, fun i hi _ hv => ?_⟩) fun hm => ?_
  · rw [hn i hi] at hm
    exact hm hv
  have hv : s.Valid handle.toNat := not_not.mp hm
  rw [every_bind, every_onSlot]
  refine .ite (fun hc => ?_) fun hc => ?_
  · exact .inr ⟨handle.toNat, by omega, by omega, hv, .inl ⟨hc, rfl, rfl⟩⟩
  set s₁ := s.setSlot handle.toNat { s.shmem_array handle.toNat with
    count := toInt32 ((s.shmem_array handle.toNat).count - 1) } with hs₁
  have h₁ : Slotted handle.toNat s s₁ := (Slotted.refl _ s).onSlot _
  have ha₁ : (s₁.shmem_array handle.toNat).state = .active := by
    rw [hs₁, Process.setSlot_self]
    exact ha _ hv
  rw [every_bind]
  refine (shmem_detach_spec ha₁).mono fun l₂ r1 s₂ ⟨h₂, hu₂, hd₂⟩ => ?_
  rw [every_bind]
  refine (shmem_destroy_spec h₂ hu₂).mono fun l₃ r2 s₃ ⟨h₃, hu₃, hd₃⟩ => ?_
  rw [every_bind, every_onSlot]
  have hd : detached l₃ = (s.shmem_array handle.toNat).mem :: detached l := by
    rw [hd₃, hd₂, hs₁, Process.setSlot_self]
  have hs : ∀ s', Slotted handle.toNat s₁ s' → Slotted handle.toNat s s' := fun s' h =>
    ⟨fun j hj => (h.others j hj).trans (h₁.others j hj), h.tasks, h.period, h.mem_id, h.data⟩
  have hend := hs _ (h₃.onSlot { s₃.shmem_array handle.toNat with magic := 0 })
  have hnv : ¬ (s₃.setSlot handle.toNat { s₃.shmem_array handle.toNat with magic := 0 }).Valid
      handle.toNat := not_valid_setSlot (show (0 : Int) ≠ SHMEM_MAGIC by decide)
  exact .ite (fun _ => .inr ⟨_, by omega, by omega, hv, .inr ⟨hc, hend, hnv, hu₃, hd⟩⟩)
    fun _ => .inr ⟨_, by omega, by omega, hv, .inr ⟨hc, hend, hnv, hu₃, hd⟩⟩

/-! ### Any sequence of calls -/

/-- `x` takes `s` to `s'` with some answers of the system, asking `l`. -/
def Does {α : Type} (x : Sys α) (s : Process) (l : List (Asked Process Call Call.Answer)) (a : α)
    (s' : Process) : Prop :=
  ∃ o : Nat → (c : Call) → c.Answer,
    ((x s).run o 0).1 = a ∧ ((x s).run o 0).2.1 = s' ∧ (x s).asked o 0 [] = l

theorem Does.of_every {α : Type} {x : Sys α} {a : α}
    {Q : List (Asked Process Call Call.Answer) → α → Process → Prop} (hd : Does x s l a s')
    (h : Every x s [] Q) : Q l a s' := by
  obtain ⟨o, rfl, rfl, rfl⟩ := hd
  exact Tree.All.run h o 0

/-- A call on shared memory. -/
inductive ShmOp where
  | new (key module_id : Int) (size : Nat)
  | getptr (handle : Int)
  | delete (handle module_id : Int)

def ShmOp.run : ShmOp → Sys Int
  | new key module_id size => rtapi_shmem_new key module_id size
  | getptr handle => do return (← rtapi_shmem_getptr handle).1
  | delete handle module_id => rtapi_shmem_delete handle module_id

/-- For each slot, the references opened and not closed since it last became valid, and the address
its `shmat` answered. -/
structure Tally where
  refs : Nat → Int := fun _ => 0
  addr : Nat → Addr := fun _ => 0

/-- The handle is of a slot that is valid. -/
def Process.Open (s : Process) (handle : Int) : Prop :=
  0 ≤ handle ∧ handle < MAX_SHM ∧ s.Valid handle.toNat

instance (s : Process) (handle : Int) : Decidable (s.Open handle) :=
  inferInstanceAs (Decidable (_ ∧ _ ∧ (s.shmem_array handle.toNat).magic = SHMEM_MAGIC))

/-- The tally after a call with the questions `l` and the result `r`. -/
def Tally.next (T : Tally) (s : Process) (l : List (Asked Process Call Call.Answer)) (r : Int) :
    ShmOp → Tally
  | .new _ _ _ =>
      if r < 0 then T
      else if s.Open r then
        { T with refs := Function.update T.refs r.toNat (T.refs r.toNat + 1) }
      else
        { refs := Function.update T.refs r.toNat 1
          addr := Function.update T.addr r.toNat ((mapped l).getD 0) }
  | .delete handle _ =>
      if s.Open handle then
        { T with refs := Function.update T.refs handle.toNat (T.refs handle.toNat - 1) }
      else T
  | .getptr _ => T

/-- The mappings a call has to detach. -/
def Tally.detaches (T : Tally) (s : Process) : ShmOp → List Addr
  | .delete handle _ =>
      if s.Open handle ∧ T.refs handle.toNat = 1 then [T.addr handle.toNat] else []
  | _ => []

/-- The handles a call opened. -/
def ShmOp.opens : ShmOp → Int → Nat
  | new _ _ _, r => if r < 0 then 0 else 1
  | _, _ => 0

/-- A sequence of calls from zero-filled handles, with its tally and how many handles it opened. -/
inductive ShmRun : Process → Tally → Nat → Prop
  | start : ShmRun {} {} 0
  | step {s s' : Process} {T : Tally} {n : Nat} {l : List (Asked Process Call Call.Answer)} {r : Int}
      (op : ShmOp) : ShmRun s T n → Does op.run s l r s' →
      ShmRun s' (T.next s l r op) (n + op.opens r)

/-- The table agrees with the tally. -/
structure Counted (s : Process) (T : Tally) : Prop where
  keys : ∀ i < MAX_SHM, ∀ j < MAX_SHM, s.Valid i → s.Valid j →
    (s.shmem_array i).key = (s.shmem_array j).key → i = j
  active : ∀ i, s.Valid i → (s.shmem_array i).state = .active
  count : ∀ i, s.Valid i → (s.shmem_array i).count = T.refs i ∧ 1 ≤ T.refs i
  addr : ∀ i, s.Valid i → (s.shmem_array i).mem = T.addr i

namespace Counted

variable {T : Tally} {r : Int}

theorem start : Counted {} {} where
  keys i _ j _ hi := absurd hi (show (0 : Int) ≠ SHMEM_MAGIC by decide)
  active i hi := absurd hi (show (0 : Int) ≠ SHMEM_MAGIC by decide)
  count i hi := absurd hi (show (0 : Int) ≠ SHMEM_MAGIC by decide)
  addr i hi := absurd hi (show (0 : Int) ≠ SHMEM_MAGIC by decide)

/-- One slot changes, to an open handle that has a key of its own. -/
theorem set {i : Nat} {x : Handle} {T' : Tally} (h : Counted s T) (hs : Slotted i s s')
    (hx : s'.shmem_array i = x)
    (hkey : x.magic = SHMEM_MAGIC → ∀ j < MAX_SHM, j ≠ i → s.Valid j →
      (s.shmem_array j).key ≠ x.key)
    (hgood : x.magic = SHMEM_MAGIC →
      x.state = .active ∧ x.count = T'.refs i ∧ 1 ≤ T'.refs i ∧ x.mem = T'.addr i)
    (hT : ∀ j, j ≠ i → T'.refs j = T.refs j ∧ T'.addr j = T.addr j) : Counted s' T' := by
  have hv : ∀ j, j ≠ i → s'.Valid j → s.Valid j := fun j hj h' => by
    unfold Process.Valid at h' ⊢
    rwa [hs.others j hj] at h'
  have hm : s'.Valid i → x.magic = SHMEM_MAGIC := fun h' => by
    unfold Process.Valid at h'
    rwa [hx] at h'
  refine ⟨fun j hj k hk hvj hvk hjk => ?_, fun j hvj => ?_, fun j hvj => ?_, fun j hvj => ?_⟩
  · by_cases hji : j = i <;> by_cases hki : k = i
    · rw [hji, hki]
    · rw [hji, hx, hs.others k hki] at hjk
      exact absurd hjk.symm (hkey (hm (hji ▸ hvj)) k hk hki (hv k hki hvk))
    · rw [hki, hx, hs.others j hji] at hjk
      exact absurd hjk (hkey (hm (hki ▸ hvk)) j hj hji (hv j hji hvj))
    · rw [hs.others j hji, hs.others k hki] at hjk
      exact h.keys j hj k hk (hv j hji hvj) (hv k hki hvk) hjk
  · by_cases hji : j = i
    · subst hji
      rw [hx]
      exact (hgood (hm hvj)).1
    · rw [hs.others j hji]
      exact h.active j (hv j hji hvj)
  · by_cases hji : j = i
    · subst hji
      rw [hx]
      exact ⟨(hgood (hm hvj)).2.1, (hgood (hm hvj)).2.2.1⟩
    · rw [hs.others j hji, (hT j hji).1]
      exact h.count j (hv j hji hvj)
  · by_cases hji : j = i
    · subst hji
      rw [hx]
      exact (hgood (hm hvj)).2.2.2
    · rw [hs.others j hji, (hT j hji).2]
      exact h.addr j (hv j hji hvj)

end Counted

theorem toInt32_eq {x : Int} (h₀ : -2 ^ 31 ≤ x) (h₁ : x < 2 ^ 31) : toInt32 x = x :=
  Int.bmod_eq_of_le_mul_two (by omega) (by omega)

theorem Counted.new {T : Tally} {n : Nat} (h : Counted s T) (hn : ∀ i, s.Valid i → T.refs i ≤ n)
    (key module_id : Int) (size : Nat) :
    Every (rtapi_shmem_new key module_id size) s [] fun l r s' =>
      n + (ShmOp.new key module_id size).opens r < 2 ^ 31 →
      Counted s' (T.next s l r (.new key module_id size)) ∧ detached l = [] ∧
        ∀ i, s'.Valid i → (T.next s l r (.new key module_id size)).refs i ≤
          (n + (ShmOp.new key module_id size).opens r : Nat) := by
  refine (rtapi_shmem_new_spec key module_id size).mono fun l r s' hout hb => ?_
  rcases hout with ⟨hr, rfl, rfl⟩ | ⟨i, hi, rfl, hv, hk, rfl, rfl⟩ | ⟨i, hi, hv, hkey, hs, hd, hout⟩
  · simp only [Tally.next, if_pos hr]
    exact ⟨h, rfl, fun i hi => by simpa [ShmOp.opens, hr] using hn i hi⟩
  · have hneg : ¬ ((i : Int) < 0) := by omega
    have hopen : s.Open i := ⟨by omega, by omega, hv⟩
    rw [ShmOp.opens, if_neg hneg] at hb
    simp only [Tally.next, if_neg hneg, if_pos hopen, Int.toNat_natCast]
    refine ⟨h.set ((Slotted.refl i s).onSlot _) (s.setSlot_self i _) (fun _ j hj hji hvj he => ?_)
      (fun _ => ?_) (fun j hj => ⟨Function.update_of_ne hj _ _, rfl⟩), rfl, fun j hvj => ?_⟩
    · exact hji (h.keys j hj i hi hvj hv he)
    · obtain ⟨hc, h₁⟩ := h.count i hv
      have := hn i hv
      have hrefs : Function.update T.refs i (T.refs i + 1) i = T.refs i + 1 :=
        Function.update_self ..
      refine ⟨h.active i hv, ?_, ?_, h.addr i hv⟩
      · show toInt32 ((s.shmem_array i).count + 1) = Function.update T.refs i (T.refs i + 1) i
        rw [hc, hrefs, toInt32_eq (by omega) (by omega)]
      · show 1 ≤ Function.update T.refs i (T.refs i + 1) i
        omega
    · simp only [ShmOp.opens, if_neg hneg]
      by_cases hji : j = i
      · subst hji
        rw [Function.update_self]
        have := hn j hv
        omega
      · rw [Function.update_of_ne hji]
        have hvj' : s.Valid j := by
          unfold Process.Valid at hvj ⊢
          rwa [Process.setSlot_of_ne _ hji] at hvj
        have := hn j hvj'
        omega
  · rcases hout with ⟨hr, hv', hu⟩ | ⟨m, rfl, hm, hu, hx⟩
    · simp only [Tally.next, if_pos hr]
      refine ⟨h.set hs rfl (fun hmag => absurd hmag hv') (fun hmag => absurd hmag hv')
        fun j _ => ⟨rfl, rfl⟩, hd, fun j hvj => ?_⟩
      have hji : j ≠ i := fun e => hv' (e ▸ hvj)
      have hvj' : s.Valid j := by
        unfold Process.Valid at hvj ⊢
        rwa [hs.others j hji] at hvj
      simpa [ShmOp.opens, hr] using hn j hvj'
    · have hneg : ¬ ((i : Int) < 0) := by omega
      have hopen : ¬ s.Open i := fun ho => hv (by simpa using ho.2.2)
      simp only [Tally.next, if_neg hneg, if_neg hopen, Int.toNat_natCast, hm, Option.getD_some]
      refine ⟨h.set hs hx (fun _ j hj hji hvj => hkey j hj hvj) (fun _ => ?_)
        (fun j hj => ⟨Function.update_of_ne hj _ _, Function.update_of_ne hj _ _⟩), hd,
        fun j hvj => ?_⟩
      · have hrefs : Function.update T.refs i 1 i = 1 := Function.update_self ..
        have h₁ : 1 ≤ Function.update T.refs i 1 i := by omega
        have haddr : Function.update T.addr i m.addr i = m.addr := Function.update_self ..
        exact ⟨rfl, hrefs.symm, h₁, haddr.symm⟩
      · simp only [ShmOp.opens, if_neg hneg]
        by_cases hji : j = i
        · subst hji
          rw [Function.update_self]
          omega
        · rw [Function.update_of_ne hji]
          have hvj' : s.Valid j := by
            unfold Process.Valid at hvj ⊢
            rwa [hs.others j hji] at hvj
          have := hn j hvj'
          omega

theorem Counted.delete {T : Tally} {n : Nat} (h : Counted s T) (hn : ∀ i, s.Valid i → T.refs i ≤ n)
    (hb : n < 2 ^ 31) (handle module_id : Int) :
    Every (rtapi_shmem_delete handle module_id) s [] fun l r s' =>
      Counted s' (T.next s l r (.delete handle module_id)) ∧
        detached l = T.detaches s (.delete handle module_id) ∧
        ∀ i, s'.Valid i → (T.next s l r (.delete handle module_id)).refs i ≤ n := by
  refine (rtapi_shmem_delete_spec handle module_id h.active).mono fun l r s' hout => ?_
  rcases hout with ⟨rfl, rfl, hv⟩ | ⟨i, hi, rfl, hv, hout⟩
  · have hopen : ¬ s'.Open handle := fun ⟨h₁, h₂, h₃⟩ => hv handle.toNat (by omega) (by omega) h₃
    simp only [Tally.next, Tally.detaches, if_neg hopen, if_neg fun e : _ ∧ _ => hopen e.1]
    exact ⟨h, rfl, hn⟩
  have hopen : s.Open i := ⟨by omega, by omega, hv⟩
  obtain ⟨hc, h₁⟩ := h.count i hv
  have hle := hn i hv
  have h32 : toInt32 ((s.shmem_array i).count - 1) = T.refs i - 1 := by
    rw [hc, toInt32_eq (by omega) (by omega)]
  have hrefs : Function.update T.refs i (T.refs i - 1) i = T.refs i - 1 := Function.update_self ..
  simp only [Tally.next, Tally.detaches, Int.toNat_natCast, hopen, true_and, if_true]
  have hold : ∀ j, s'.Valid j → j ≠ i → s.Valid j → Function.update T.refs i (T.refs i - 1) j ≤ n :=
    fun j _ hj hvj => by
      rw [Function.update_of_ne hj]
      exact hn j hvj
  rcases hout with ⟨hpos, rfl, rfl⟩ | ⟨hneg, hs, hv', hu, hd⟩
  · rw [h32] at hpos
    have hone : ¬ T.refs i = 1 := by omega
    rw [if_neg hone]
    refine ⟨h.set ((Slotted.refl i s).onSlot _) (s.setSlot_self i _) (fun _ j hj hji hvj he => ?_)
      (fun _ => ⟨h.active i hv, ?_, ?_, h.addr i hv⟩)
      (fun j hj => ⟨Function.update_of_ne hj _ _, rfl⟩), rfl, fun j hvj => ?_⟩
    · exact hji (h.keys j hj i hi hvj hv he)
    · exact h32.trans hrefs.symm
    · show 1 ≤ Function.update T.refs i (T.refs i - 1) i
      rw [hrefs]
      omega
    · by_cases hji : j = i
      · subst hji
        show Function.update T.refs j (T.refs j - 1) j ≤ n
        rw [hrefs]
        omega
      · refine hold j hvj hji ?_
        unfold Process.Valid at hvj ⊢
        rwa [Process.setSlot_of_ne _ hji] at hvj
  · rw [h32] at hneg
    have hone : T.refs i = 1 := by omega
    rw [if_pos hone]
    refine ⟨h.set hs rfl (fun hm => absurd hm hv') (fun hm => absurd hm hv')
      (fun j hj => ⟨Function.update_of_ne hj _ _, rfl⟩), ?_, fun j hvj => ?_⟩
    · rw [hd, h.addr i hv]
      rfl
    · have hji : j ≠ i := fun e => hv' (e ▸ hvj)
      refine hold j hvj hji ?_
      unfold Process.Valid at hvj ⊢
      rwa [hs.others j hji] at hvj

/-- One call keeps the table in agreement with the tally. -/
theorem Counted.step {T : Tally} {n : Nat} (h : Counted s T) (hn : ∀ i, s.Valid i → T.refs i ≤ n)
    (op : ShmOp) {l : List (Asked Process Call Call.Answer)} {r : Int} (hd : Does op.run s l r s')
    (hb : n + op.opens r < 2 ^ 31) :
    Counted s' (T.next s l r op) ∧ detached l = T.detaches s op ∧
      ∀ i, s'.Valid i → (T.next s l r op).refs i ≤ (n + op.opens r : Nat) := by
  cases op with
  | new key module_id size =>
      obtain ⟨h₁, h₂, h₃⟩ := hd.of_every (h.new hn key module_id size) hb
      exact ⟨h₁, h₂, h₃⟩
  | getptr handle =>
      have hg : Every (ShmOp.getptr handle).run s [] fun l _ s' => s' = s ∧ l = [] :=
        every_bind.mpr ((rtapi_shmem_getptr_spec handle).mono fun _ _ _ ⟨h₁, h₂, _⟩ => ⟨h₁, h₂⟩)
      obtain ⟨rfl, rfl⟩ := hd.of_every hg
      exact ⟨h, rfl, hn⟩
  | delete handle module_id => exact hd.of_every (h.delete hn hb handle module_id)

theorem ShmRun.counted {T : Tally} {n : Nat} (h : ShmRun s T n) (hb : n < 2 ^ 31) :
    Counted s T ∧ ∀ i, s.Valid i → T.refs i ≤ n := by
  induction h with
  | start => exact ⟨.start, fun i hi => absurd hi (show (0 : Int) ≠ SHMEM_MAGIC by decide)⟩
  | step op _ hd ih =>
      obtain ⟨hc, hn⟩ := ih (by omega)
      obtain ⟨hc', -, hn'⟩ := hc.step hn op hd hb
      exact ⟨hc', hn'⟩

/-- **Handles are counted.**  After any sequence of calls the table agrees with the tally, an open
handle gives the address it was mapped at, and a call detaches a mapping when and only when it
closes its last reference. -/
theorem handles_counted {T : Tally} {n : Nat} (h : ShmRun s T n) (hb : n < 2 ^ 31) :
    Counted s T ∧
      (∀ handle l r s', Does (rtapi_shmem_getptr handle) s l r s' → r.1 ≠ -EACCES ∧
        (s.Open handle → r = (0, T.addr handle.toNat))) ∧
      ∀ op l r s', Does (ShmOp.run op) s l r s' → n + op.opens r < 2 ^ 31 →
        detached l = T.detaches s op := by
  obtain ⟨hc, hn⟩ := h.counted hb
  refine ⟨hc, fun handle l r s' hd => ?_, fun op l r s' hd hb' => (hc.step hn op hd hb').2.1⟩
  obtain ⟨-, -, hacc, hptr⟩ := hd.of_every (rtapi_shmem_getptr_spec handle)
  refine ⟨hacc.elim id fun ⟨hv, ha⟩ => absurd (hc.active _ hv) ha, fun ⟨h₁, h₂, hv⟩ => ?_⟩
  have := hptr handle.toNat (by omega) (by omega) hv (hc.active _ hv)
  rw [this, hc.addr _ hv]

theorem page_ne : (4096 : Addr) ≠ 0 := by decide

theorem enomem_pos : (0 : Int) < 12 := by decide

/-- A system that answers every call. -/
def plain_answers (_ : Nat) : (c : Call) → c.Answer
  | .getpid => (100 : Int)
  | .geteuid => (1000 : Nat)
  | .shmget _ _ => .ok 7
  | .shm_stat _ => .ok 0
  | .shm_set _ => .ok ()
  | .shm_rmid _ => .ok ()
  | .shmat _ => .ok ⟨4096, page_ne, 0⟩
  | .shmdt _ => .ok ()
  | .sched_get_priority_max => (99 : Int)
  | .sched_get_priority_min => (1 : Int)
  | .rt_cpu => false
  | .pthread_attr _ => none
  | .pthread_create _ => none
  | .pthread_cancel _ => ()
  | .pthread_join _ => ()
  | .clock_gettime => (0 : Int)

/-- The key is opened twice and closed once; the handle stays open, and the next closing detaches the
mapping. -/
theorem handles_counted_sample : ∃ s T l s', ShmRun s T 2 ∧ Counted s T ∧ s.Open 0 ∧ T.refs 0 = 1 ∧
    Does (ShmOp.run (.delete 0 0)) s l 0 s' ∧ detached l = [4096] := by
  have hopen := ShmRun.step (.new 5 0 16) .start ⟨plain_answers, rfl, rfl, rfl⟩
  have htwice := ShmRun.step (.new 5 1 16) hopen ⟨plain_answers, rfl, rfl, rfl⟩
  have hclosed := ShmRun.step (.delete 0 1) htwice ⟨plain_answers, rfl, rfl, rfl⟩
  obtain ⟨hc, -, hdetached⟩ := handles_counted hclosed (by decide)
  refine ⟨_, _, _, _, hclosed, hc, by decide, rfl, ⟨plain_answers, rfl, rfl, rfl⟩, ?_⟩
  exact hdetached (.delete 0 0) _ _ _ ⟨plain_answers, rfl, rfl, rfl⟩ (by decide)

end RTS.Uspace

import RealTimeSystem.Uspace.Handles
import RealTimeSystem.Hal.Program

/-!
# RTAPI — as HAL sees it

`rtapi K` is the RTAPI of the repository in a process whose system calls are answered by `K`, the
`n`-th call by `K n`.
-/

namespace RTS.Uspace

open RTS.Support RTS.Hal

/-- What answers the system calls. -/
abbrev Kernel := Nat → (c : Call) → c.Answer

/-- A process and the number of its next system call. -/
structure Machine where
  process : Process := {}
  tick : Nat := 0

variable {α : Type} (K : Kernel)

/-- Run a program of the process. -/
def perform (x : Sys α) (m : Machine) : α × Machine :=
  (((x m.process).run K m.tick).1,
    ⟨((x m.process).run K m.tick).2.1, ((x m.process).run K m.tick).2.2⟩)

/-- The RTAPI of the repository. -/
def rtapi : Rtapi Machine where
  init modname := perform K (rtapi_init modname)
  exit module_id := perform K (rtapi_exit module_id)
  shmem_new key module_id size := perform K (rtapi_shmem_new key module_id size.toNat)
  shmem_getptr handle := perform K (rtapi_shmem_getptr handle)
  shmem_delete handle module_id := perform K (rtapi_shmem_delete handle module_id)
  clock_set_period nsecs := perform K (rtapi_clock_set_period nsecs)
  task_new arg prio owner stacksize uses_fp :=
    perform K (rtapi_task_new arg prio owner stacksize.toNat uses_fp)
  task_start task_id period_nsec := perform K (rtapi_task_start task_id period_nsec)
  task_pause task_id := perform K (rtapi_task_pause task_id)
  task_delete id := perform K (rtapi_task_delete id)
  get_clocks := perform K (do let t ← ask Call.clock_gettime; return t)
  getpid := perform K (do let p ← ask Call.getpid; return p)

variable {K} {m : Machine}

/-- A result that does not depend on the answers. -/
theorem perform_of_every {x : Sys α} {Q : α → Process → Prop}
    (h : Every x m.process [] fun _ a s' => Q a s') :
    Q (perform K x m).1 (perform K x m).2.process :=
  Tree.All.run h K m.tick

/-! ### The UUID segment -/

/-- `rtapi_init` was called and its segment is mapped where `uuid_data` points. -/
structure Live (s : Process) : Prop where
  mem_id : s.uuid_mem_id = 0
  valid : s.Valid 0
  key : (s.shmem_array 0).key = UUID_KEY
  active : (s.shmem_array 0).state = .active
  data : s.uuid_data = (s.shmem_array 0).mem
  mapped : s.uuid_data ≠ 0

/-- The UUID segment has `n` references. -/
def Process.refs (s : Process) : Int := (s.shmem_array 0).count

theorem scan_first {t : Nat → Handle} {key : Int} {n : Nat} (hm : (t 0).magic = SHMEM_MAGIC)
    (hk : (t 0).key = key) : scan t key (n + 1) 0 none = .inl 0 := by
  simp [scan, hm, hk]

variable {s : Process} {l : List (Asked Process Call Call.Answer)}

/-- A second `rtapi_shmem_new` of the first slot's key. -/
theorem shmem_new_live (h : Live s) :
    Every (rtapi_shmem_new UUID_KEY 0 UUID_SIZE) s l fun l' r s' => l' = l ∧ r = 0 ∧
      s' = s.setSlot 0 { s.shmem_array 0 with count := toInt32 (s.refs + 1) } := by
  unfold rtapi_shmem_new
  refine .ite (fun h => absurd h (by decide)) fun _ => .ite (fun h => absurd h (by decide)) fun _ => ?_
  rw [every_bind, every_get, show MAX_SHM = 63 + 1 from rfl, scan_first h.valid h.key]
  exact ⟨rfl, rfl, rfl⟩

/-- **`rtapi_init` with the segment mapped.**  It always succeeds: one reference more, and the next
number. -/
theorem rtapi_init_live (h : Live s) (modname : CStr) :
    Every (rtapi_init modname) s l fun l' r s' => l' = l ∧
      r = toInt32 (s.uuid s.uuid_data + 1) ∧
      s' = { s.setSlot 0 { s.shmem_array 0 with count := toInt32 (s.refs + 1) } with
        uuid_mem_id := 0, uuid := Function.update s.uuid s.uuid_data r } := by
  unfold rtapi_init
  rw [every_bind]
  refine (shmem_new_live h).mono fun l₁ r₁ s₁ ⟨hl, hr, hs⟩ => ?_
  subst hl hr hs
  rw [every_bind, every_modify]
  refine .ite (fun h => absurd h (by decide)) fun _ => ?_
  rw [every_bind]
  refine (rtapi_shmem_getptr_spec 0).mono fun l₂ p s₂ ⟨hs, hl, _, hp⟩ => ?_
  subst hs hl
  have hp := hp 0 rfl (by decide) h.valid h.active
  subst hp
  refine .ite (fun h => absurd h (show ¬ (0 : Int) < 0 by decide)) fun _ => ?_
  rw [every_bind, every_modify, every_bind, every_modify, every_bind, every_get]
  generalize hs₂ : ({ s.setSlot 0 { s.shmem_array 0 with count := toInt32 (s.refs + 1) } with
    uuid_mem_id := 0 } : Process) = s₂
  have hd : s₂.uuid_data = s.uuid_data := by subst hs₂; rfl
  have hu : s₂.uuid = s.uuid := by subst hs₂; rfl
  rw [if_neg (by rw [hd]; exact h.mapped), hd, hu, every_pure]
  refine ⟨rfl, Function.update_self .., ?_⟩
  subst hs₂
  simp [Process.setSlot]

/-- One reference less, and more than none left. -/
theorem rtapi_exit_live (h : Live s) (h₂ : 2 ≤ s.refs) (hb : s.refs < 2 ^ 31) (id : Int) :
    Every (rtapi_exit id) s l fun l' _ s' => l' = l ∧
      s' = s.setSlot 0 { s.shmem_array 0 with count := s.refs - 1 } := by
  have hc : toInt32 ((s.shmem_array 0).count - 1) = s.refs - 1 := by
    unfold Process.refs at *
    exact toInt32_eq (by omega) (by omega)
  unfold rtapi_exit rtapi_shmem_delete
  rw [every_bind, every_get, h.mem_id, every_bind]
  refine .ite (fun h => absurd h (by decide)) fun _ => ?_
  rw [every_bind, every_get]
  refine .ite (fun hm => absurd h.valid hm) fun _ => ?_
  rw [every_bind, every_onSlot]
  refine .ite (fun _ => ?_) fun hneg => ?_
  · simp only [Int.toNat_zero, hc]
    exact ⟨rfl, rfl⟩
  · simp only [Int.toNat_zero, hc] at hneg
    omega

/-- Changes that leave the UUID handle open. -/
theorem Live.keep {s' : Process} (h : Live s)
    (h₀ : s'.shmem_array 0 = { s.shmem_array 0 with count := s'.refs })
    (hid : s'.uuid_mem_id = 0) (hd : s'.uuid_data = s.uuid_data) : Live s' where
  mem_id := hid
  valid := by
    unfold Process.Valid
    rw [h₀]
    exact h.valid
  key := by rw [h₀]; exact h.key
  active := by rw [h₀]; exact h.active
  data := by rw [hd, h₀]; exact h.data
  mapped := by rw [hd]; exact h.mapped

theorem Live.tabled {s' : Process} (h : Live s) (ht : Tabled s s') : Live s' ∧ s'.refs = s.refs := by
  have hr : s'.refs = s.refs := by
    unfold Process.refs
    rw [ht.shmem]
  refine ⟨h.keep ?_ (ht.mem_id.trans h.mem_id) ht.data, hr⟩
  rw [ht.shmem, hr]
  rfl

/-- What `rtapi_init` leaves of a process whose UUID segment is mapped. -/
theorem Live.init (h : Live s) (hb : s.refs + 1 < 2 ^ 31) (h₀ : 0 ≤ s.refs) (modname : CStr) :
    Every (rtapi_init modname) s l fun _ r s' => Live s' ∧ s'.refs = s.refs + 1 ∧
      r = toInt32 (s.uuid s.uuid_data + 1) ∧ s'.uuid_data = s.uuid_data ∧
      s'.uuid s'.uuid_data = r ∧ s'.task_array = s.task_array := by
  refine (rtapi_init_live h modname).mono fun l' r s' ⟨_, hr, hs⟩ => ?_
  have hc : s'.refs = s.refs + 1 := by
    subst hs
    exact toInt32_eq (by omega) (by omega)
  refine ⟨h.keep ?_ (by subst hs; rfl) (by subst hs; rfl), hc, hr, by subst hs; rfl, ?_, ?_⟩
  · subst hs
    rfl
  · subst hs
    exact Function.update_self ..
  · subst hs
    rfl

theorem Live.exit (h : Live s) (h₂ : 2 ≤ s.refs) (hb : s.refs < 2 ^ 31) (id : Int) :
    Every (rtapi_exit id) s l fun _ _ s' => Live s' ∧ s'.refs = s.refs - 1 ∧
      s'.uuid_data = s.uuid_data ∧ s'.uuid = s.uuid ∧ s'.task_array = s.task_array := by
  refine (rtapi_exit_live h h₂ hb id).mono fun l' r s' ⟨_, hs⟩ => ?_
  subst hs
  exact ⟨h.keep rfl h.mem_id rfl, rfl, rfl, rfl, rfl⟩

/-! ### Tasks and the clock -/

theorem task_new_result (arg : Addr) (prio owner stacksize uses_fp : Int) :
    (((rtapi K).task_new arg prio owner stacksize uses_fp m).1 < 0 ∧
        ((rtapi K).task_new arg prio owner stacksize uses_fp m).2.process = m.process) ∨
      ∃ (n : Nat) (t : Task), ((rtapi K).task_new arg prio owner stacksize uses_fp m).1 = n ∧
        m.process.task_array n = none ∧ t.arg = arg ∧ t.magic = TASK_MAGIC ∧ n < MAX_TASKS ∧
        ((rtapi K).task_new arg prio owner stacksize uses_fp m).2.process =
          m.process.setTask n (some t) := by
  rcases perform_of_every (K := K) (m := m)
    (rtapi_task_new_spec (l := []) arg prio owner stacksize.toNat uses_fp) with
    h | ⟨n, t, hr, hn, hfree, ha, -, hm, hs⟩
  · exact .inl h
  · exact .inr ⟨n, t, hr, hfree, ha, hm, hn, hs⟩

theorem task_start_result (task_id period_nsec : Int) :
    Touched m.process task_id ((rtapi K).task_start task_id period_nsec m).2.process ∧
      Stays m.process task_id ((rtapi K).task_start task_id period_nsec m).2.process :=
  perform_of_every (K := K) (m := m) (rtapi_task_start_spec (l := []) task_id period_nsec)

theorem task_pause_result (id : Int) :
    Touched m.process id ((rtapi K).task_pause id m).2.process :=
  perform_of_every (K := K) (m := m) (rtapi_task_pause_spec (l := []) id)

theorem task_delete_result (id : Int) :
    Touched m.process id ((rtapi K).task_delete id m).2.process :=
  perform_of_every (K := K) (m := m) (rtapi_task_delete_spec (l := []) id)

theorem clock_set_period_result (nsecs : Int) :
    Tabled m.process ((rtapi K).clock_set_period nsecs m).2.process ∧
      ((rtapi K).clock_set_period nsecs m).2.process.task_array = m.process.task_array :=
  perform_of_every (K := K) (m := m) (rtapi_clock_set_period_spec (l := []) nsecs)

/-! ### The start of a process -/

theorem scan_free {t : Nat → Handle} (h : ∀ j, (t j).magic ≠ SHMEM_MAGIC) (key : Int)
    (n i j : Nat) : scan t key n i (some j) = .inr (some j) := by
  induction n generalizing i with
  | zero => rfl
  | succ n ih =>
      unfold scan
      rw [if_neg (h i)]
      exact ih (i + 1)

theorem scan_closed {t : Nat → Handle} (h : ∀ j, (t j).magic ≠ SHMEM_MAGIC) (key : Int) (n : Nat) :
    scan t key (n + 1) 0 none = .inr (some 0) := by
  unfold scan
  rw [if_neg (h 0)]
  exact scan_free h key n 1 0

theorem rtapi_shmem_delete_negative {handle : Int} (h : handle < 0) (module_id : Int) :
    Every (rtapi_shmem_delete handle module_id) s l fun l' _ s' => l' = l ∧ s' = s := by
  unfold rtapi_shmem_delete
  exact .ite (fun _ => ⟨rfl, rfl⟩) fun hn => absurd (.inl h) hn

/-- `rtapi_shmem_new` with no handle open takes the first slot. -/
theorem shmem_new_closed (hv : ∀ j, ¬ s.Valid j) :
    Every (rtapi_shmem_new UUID_KEY 0 UUID_SIZE) s l fun l' r s' =>
      Opened 0 UUID_KEY l s l' r s' ∧ (r < 0 → mapped l' = mapped l) := by
  unfold rtapi_shmem_new
  refine .ite (fun h => absurd h (by decide)) fun _ =>
    .ite (fun h => absurd h (by decide)) fun _ => ?_
  rw [every_bind, every_get, show MAX_SHM = 63 + 1 from rfl, scan_closed hv]
  exact (shmem_create_spec (hv 0) UUID_KEY UUID_SIZE).and (shmem_create_mapped 0 UUID_KEY UUID_SIZE)

/-- The UUID segment is mapped, by the first handle and with one reference; `s` is the process
before, whose `uuid_data` is kept if it was set. -/
structure Mapped (s : Process) (m : Mapping) (r : Int) (s' : Process) : Prop where
  mem_id : s'.uuid_mem_id = 0
  valid : s'.Valid 0
  key : (s'.shmem_array 0).key = UUID_KEY
  active : (s'.shmem_array 0).state = .active
  mem : (s'.shmem_array 0).mem = m.addr
  refs : s'.refs = 1
  others : ∀ j, j ≠ 0 → ¬ s'.Valid j
  data : s'.uuid_data = if s.uuid_data = 0 then m.addr else s.uuid_data
  counter : s'.uuid s'.uuid_data = r
  next : r = toInt32 (Function.update s.uuid m.addr m.uuid s'.uuid_data + 1)
  tasks : s'.task_array = s.task_array

/-- **`rtapi_init` with no handle open.**  It fails, or it maps the UUID segment. -/
theorem rtapi_init_closed (hv : ∀ j, ¬ s.Valid j) (modname : CStr) :
    Every (rtapi_init modname) s l fun l' r s' =>
      (r = -EINVAL ∧ mapped l' = mapped l ∧ (∀ j, ¬ s'.Valid j) ∧ s'.uuid_mem_id < 0) ∨
      ∃ m : Mapping, mapped l' = some m.addr ∧ Mapped s m r s' := by
  unfold rtapi_init
  rw [every_bind]
  refine (shmem_new_closed hv).mono fun l₁ r₁ s₁ ⟨⟨hs, _, hout⟩, hmap⟩ => ?_
  have hothers : ∀ j, j ≠ 0 → ¬ s₁.Valid j := fun j hj hvj => by
    unfold Process.Valid at hvj
    rw [hs.others j hj] at hvj
    exact hv j hvj
  rw [every_bind, every_modify]
  rcases hout with ⟨hr, hv₀, -⟩ | ⟨m, hr, hm, hu, h₀⟩
  · refine .ite (fun _ => ?_) fun h => absurd hr h
    unfold rtapi_exit
    rw [every_bind, every_bind, every_get, every_bind]
    have hdel := rtapi_shmem_delete_negative (s := { s₁ with uuid_mem_id := r₁ }) (l := l₁) hr 0
    refine hdel.mono fun l₂ r₂ s₂ ⟨hl, hs₂⟩ => ?_
    subst hl hs₂
    refine .inl ⟨rfl, hmap hr, fun j => ?_, hr⟩
    by_cases hj : j = 0
    · exact hj ▸ hv₀
    · exact hothers j hj
  · subst hr
    refine .ite (fun h => absurd h (by decide)) fun _ => ?_
    rw [every_bind]
    refine (rtapi_shmem_getptr_spec 0).mono fun l₂ p s₂ ⟨hs₂, hl₂, _, hp⟩ => ?_
    subst hs₂ hl₂
    have hv₁ : s₁.Valid 0 := by
      unfold Process.Valid
      rw [h₀]
    have ha : (s₁.shmem_array 0).state = .active := by rw [h₀]
    have hp := hp 0 rfl (by decide) hv₁ ha
    subst hp
    refine .ite (fun h => absurd h (show ¬ (0 : Int) < 0 by decide)) fun _ => ?_
    rw [every_bind, every_modify, every_bind, every_modify, every_bind, every_get, every_pure]
    have hmem : (s₁.shmem_array 0).mem = m.addr := by rw [h₀]
    have hrefs : s₁.refs = 1 := by
      unfold Process.refs
      rw [h₀]
    have hnext : ∀ a, Function.update s₁.uuid a (toInt32 (s₁.uuid a + 1)) a =
        toInt32 (Function.update s.uuid m.addr m.uuid a + 1) := fun a => by
      rw [Function.update_self, hu]
    refine .inr ⟨m, hm, ?_⟩
    by_cases hz : s₁.uuid_data = 0
    · rw [if_pos hz]
      have hd : (s₁.shmem_array 0).mem = if s.uuid_data = 0 then m.addr else s.uuid_data := by
        rw [if_pos (hs.data ▸ hz), hmem]
      exact ⟨rfl, hv₁, by rw [h₀], ha, hmem, hrefs, hothers, hd, rfl, hnext _, hs.tasks⟩
    · rw [if_neg hz]
      have hd : s₁.uuid_data = if s.uuid_data = 0 then m.addr else s.uuid_data := by
        rw [if_neg (hs.data ▸ hz), hs.data]
      exact ⟨rfl, hv₁, by rw [h₀], ha, hmem, hrefs, hothers, hd, rfl, hnext _, hs.tasks⟩

/-- The first `rtapi_init` fails or maps the UUID segment, on the first slot. -/
theorem rtapi_init_first (modname : CStr) :
    Every (rtapi_init modname) {} l fun _ r s' => r < 0 ∨
      Live s' ∧ s'.refs = 1 ∧ (∀ j, j ≠ 0 → ¬ s'.Valid j) ∧ s'.task_array = fun _ => none := by
  have hv : ∀ j, ¬ ({} : Process).Valid j := fun _ => show (0 : Int) ≠ SHMEM_MAGIC by decide
  refine (rtapi_init_closed hv modname).mono fun _ r s' hout => ?_
  rcases hout with ⟨rfl, -⟩ | ⟨m, -, h⟩
  · exact .inl (by decide)
  · have hd : s'.uuid_data = m.addr := h.data
    refine .inr ⟨⟨h.mem_id, h.valid, h.key, h.active, ?_, ?_⟩, h.refs, h.others, h.tasks⟩
    · rw [hd, h.mem]
    · exact hd ▸ m.ne

/-- The handle of another key, opened beside the UUID segment, is not the first. -/
theorem shmem_new_beside {key : Int} (h : Live s) (hk : key ≠ UUID_KEY)
    (hv : ∀ j, j ≠ 0 → ¬ s.Valid j) (module_id : Int) (size : Nat) :
    Every (rtapi_shmem_new key module_id size) s l fun _ r s' =>
      Live s' ∧ s'.refs = s.refs ∧ s'.task_array = s.task_array ∧ r ≠ 0 := by
  refine (rtapi_shmem_new_spec key module_id size).mono fun l' r s' hout => ?_
  rcases hout with ⟨hr, rfl, -⟩ | ⟨i, -, -, hi, hkey, -, -⟩ | ⟨i, -, hi, -, hs, -, hout⟩
  · exact ⟨h, rfl, rfl, by omega⟩
  · by_cases hi0 : i = 0
    · subst hi0
      exact absurd (hkey.symm.trans h.key) hk
    · exact absurd hi (hv i hi0)
  · have hi0 : i ≠ 0 := fun e => hi (e ▸ h.valid)
    have h₀ : s'.shmem_array 0 = s.shmem_array 0 := hs.others 0 (Ne.symm hi0)
    have hr : s'.refs = s.refs := by
      unfold Process.refs
      rw [h₀]
    refine ⟨h.keep ?_ (hs.mem_id.trans h.mem_id) hs.data, hr, hs.tasks, ?_⟩
    · rw [h₀, hr]
      rfl
    · rcases hout with ⟨hneg, -⟩ | ⟨m, rfl, -⟩
      · omega
      · omega

end RTS.Uspace

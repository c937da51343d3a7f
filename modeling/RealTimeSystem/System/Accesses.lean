import RealTimeSystem.System.Boot
import RealTimeSystem.Uspace.Keys

/-!
# System — accesses to the segment

`hal_data` points to the segment from `hal_app_main` or the first `hal_init` on, also when
`hal_app_exit` has detached it.  Here the operations are written out with their accesses to
`*hal_data` (`Watch`), each recorded with what the process has mapped at that moment; without the
records they are the operations (`Api.erases`).

**`accesses_mapped`**: the operations are called in any order, from a process that has not
initialised HAL; if none of them is called too early and `hal_app_exit` gives back no last
reference, every access is to the mapped segment.
-/

namespace RTS.Uspace

open RTS.Support RTS.Hal

variable {K : Kernel} {α β : Type}

/-! ### Programs with their accesses -/

/-- A moment at which `*hal_data` is read or written. -/
structure Access where
  hal_data : Addr
  process : Process

/-- The pointer is not null, and an open handle maps the segment there. -/
def Access.Mapped (a : Access) : Prop := a.hal_data ≠ 0 ∧ ∃ i, a.process.Mounts i a.hal_data

/-- A process using HAL, and its accesses so far. -/
structure Watched where
  hal : State Machine
  accesses : List Access := []

abbrev Watch := EStateM Stop Watched

/-- A part of a program that does not touch `*hal_data`. -/
def quietly (x : Prog Machine α) : Watch α := fun w =>
  match x w.hal with
  | .ok a s => .ok a { w with hal := s }
  | .error e s => .error e { w with hal := s }

/-- A part of a program that touches `*hal_data`, and has it mapped from its start to its end or
not at all. -/
def accessing (x : Prog Machine α) : Watch α := do
  modify fun w => { w with accesses := ⟨w.hal.hal_data, w.hal.rt.process⟩ :: w.accesses }
  quietly x

section
variable (K)

/-- `hal_data && hal_data->state == HAL_S_DESTROYED` -/
def watch_destroyed : Watch Bool := do
  let s ← quietly get
  if s.hal_data ≠ 0 then
    accessing (look fun m => decide (m.state = .destroyed))
  else
    return false

def watch_init_lib : Watch Int := do
  let destroyed ← watch_destroyed
  if destroyed then
    return -EINVAL
  let pid ← quietly (call (rtapi K).getpid)
  let id ← quietly (call ((rtapi K).init (rt_snprintf RTAPI_NAME_LEN
    (lit ['H', 'A', 'L', '_', 'L', 'I', 'B', '_'] ++ lit (toString pid).toList))))
  quietly (modify fun s => { s with lib_module_id := id })
  if id < 0 then
    return -EINVAL
  let mem_id ← quietly (call ((rtapi K).shmem_new HAL_KEY id HAL_SIZE))
  quietly (modify fun s => { s with lib_mem_id := mem_id })
  if mem_id < 0 then
    let _ ← quietly (call ((rtapi K).exit id))
    return -EINVAL
  let (retval, mem) ← quietly (call ((rtapi K).shmem_getptr mem_id))
  if retval < 0 then
    let _ ← quietly (call ((rtapi K).exit id))
    return -EINVAL
  quietly (modify fun s => { s with hal_shmem_base := mem, hal_data := mem })
  let retval ← accessing (init_hal_data (rtapi K))
  if retval ≠ 0 then
    let _ ← quietly (call ((rtapi K).exit id))
    return -EINVAL
  return 0

def watch_init_comp (name : CStr) : Watch Int := do
  let hal_name := rt_snprintf (HAL_NAME_LEN + 1) name
  let comp_id ← quietly (call ((rtapi K).init (rtapi_name name)))
  if comp_id < 0 then
    return -EINVAL
  accessing rtapi_mutex_get
  let dup ← accessing (walk fun m => m.halpr_find_comp_by_name hal_name)
  if dup ≠ 0 then
    accessing rtapi_mutex_give
    let _ ← quietly (call ((rtapi K).exit comp_id))
    return -EINVAL
  let comp ← accessing (take Segment.halpr_alloc_comp_struct)
  if comp = 0 then
    accessing rtapi_mutex_give
    let _ ← quietly (call ((rtapi K).exit comp_id))
    return -ENOMEM
  let s ← quietly get
  accessing (change fun m => m.setComp comp { m.comp comp with
    comp_id := comp_id, type := .realtime, pid := 0, ready := 0, shmem_base := s.hal_shmem_base,
    insmod_args := 0 })
  accessing (change fun m => m.insert_head .comp comp)
  accessing rtapi_mutex_give
  accessing (change fun m => m.setComp comp { m.comp comp with type := .realtime, pid := 0 })
  quietly (modify fun s => { s with ref_cnt := s.ref_cnt + 1 })
  return comp_id

def watch_init (name : Option CStr) : Watch Int := do
  match name with
  | none => return -EINVAL
  | some name =>
      if name.length > HAL_NAME_LEN then
        return -EINVAL
      let s ← quietly get
      if s.lib_mem_id = 0 then
        let retval ← watch_init_lib K
        if retval ≠ 0 then
          return retval
        else
          watch_init_comp K name
      else
        watch_init_comp K name

def watch_app_main : Watch Int := do
  let id ← quietly (call ((rtapi K).init (lit ['H', 'A', 'L', '_', 'L', 'I', 'B'])))
  quietly (modify fun s => { s with lib_module_id := id })
  if id < 0 then
    return -EINVAL
  let mem_id ← quietly (call ((rtapi K).shmem_new HAL_KEY id HAL_SIZE))
  quietly (modify fun s => { s with lib_mem_id := mem_id })
  if mem_id < 0 then
    let _ ← quietly (call ((rtapi K).exit id))
    return -EINVAL
  let (retval, mem) ← quietly (call ((rtapi K).shmem_getptr mem_id))
  if retval < 0 then
    let _ ← quietly (call ((rtapi K).shmem_delete mem_id id))
    let _ ← quietly (call ((rtapi K).exit id))
    return -EINVAL
  quietly (modify fun s => { s with hal_shmem_base := mem, hal_data := mem })
  accessing (change fun m => { m with state := .initializing, error_code := 0 })
  let retval ← accessing (init_hal_data (rtapi K))
  if retval ≠ 0 then
    let _ ← quietly (call ((rtapi K).shmem_delete mem_id id))
    let _ ← quietly (call ((rtapi K).exit id))
    return -EINVAL
  return 0

def watch_app_exit : Watch Unit := do
  let s ← quietly get
  if s.hal_data = 0 then
    return ()
  let destroyed ← accessing (look fun m => decide (m.state = .destroyed))
  if destroyed then
    return ()
  accessing (hal_app_teardown (rtapi K))
  let s ← quietly get
  let _ ← quietly (call ((rtapi K).shmem_delete s.lib_mem_id s.lib_module_id))
  let _ ← quietly (call ((rtapi K).exit s.lib_module_id))
  accessing (change fun m => { m with state := .destroyed })

end

/-- The operations that test `hal_data` first; the others take the mutex first. -/
def Op.Guarded : Op → Bool
  | .hal_set_constructor .. => false
  | .hal_ready _ => false
  | .hal_unready _ => false
  | .hal_set_unready _ => false
  | .hal_comp_name _ => false
  | .teardown => false
  | _ => true

/-- The public operations; `teardown` is only called by `hal_app_exit`. -/
inductive Api where
  | hal_app_main
  | hal_app_exit
  | of (op : Op)

variable (K) in
/-- The operation, its result ignored. -/
def Api.run : Api → Prog Machine Unit
  | .hal_app_main => do let _ ← Hal.hal_app_main (rtapi K)
  | .hal_app_exit => Hal.hal_app_exit (rtapi K)
  | .of op => op.run (rtapi K)

variable (K) in
/-- The operation with its accesses. -/
def Api.watch : Api → Watch Unit
  | .hal_app_main => do let _ ← watch_app_main K
  | .hal_app_exit => watch_app_exit K
  | .of (.hal_init name) => do let _ ← watch_init K name
  | .of op => do
      let s ← quietly get
      if Op.Guarded op ∧ s.hal_data = 0 then
        quietly (op.run (rtapi K))
      else
        accessing (op.run (rtapi K))

/-! ### Without the records -/

/-- `y` is `x` with records of accesses. -/
def Erases (y : Watch α) (x : Prog Machine α) : Prop :=
  ∀ w, match y w with
    | .ok a w' => x w.hal = .ok a w'.hal
    | .error e w' => x w.hal = .error e w'.hal

namespace Erases

variable {x : Prog Machine α} {y : Watch α}

theorem quietly : Erases (quietly x) x := fun w => by
  unfold Uspace.quietly
  cases hx : x w.hal <;> exact rfl

theorem accessing : Erases (accessing x) x := fun w =>
  quietly { w with accesses := ⟨w.hal.hal_data, w.hal.rt.process⟩ :: w.accesses }

theorem pure {a : α} : Erases (pure a) (pure a) := fun _ => rfl

theorem bind {f : α → Watch β} {g : α → Prog Machine β} (hx : Erases y x)
    (hf : ∀ a, Erases (f a) (g a)) : Erases (y >>= f) (x >>= g) := fun w => by
  show match EStateM.bind y f w with
    | .ok a w' => EStateM.bind x g w.hal = .ok a w'.hal
    | .error e w' => EStateM.bind x g w.hal = .error e w'.hal
  have h := hx w
  unfold EStateM.bind
  cases hy : y w with
  | ok a w' =>
      rw [hy] at h
      simp only [h]
      exact hf a w'
  | error e w' =>
      rw [hy] at h
      simp only [h]

theorem ite {c : Prop} [Decidable c] {x' : Prog Machine α} {y' : Watch α} (ht : Erases y x)
    (hf : Erases y' x') : Erases (if c then y else y') (if c then x else x') := by
  split_ifs
  · exact ht
  · exact hf

theorem of_eq {x' : Prog Machine α} (h : Erases y x) (e : x' = x) : Erases y x' := e ▸ h

/-- What holds of the watched program holds of the program. -/
theorem wp {w : Watched} {P : State Machine → Prop} (he : Erases y x)
    (h : Wp y w (fun _ w' => P w'.hal) fun _ w' => P w'.hal) :
    Wp x w.hal (fun _ s => P s) fun _ s => P s := by
  have hw := he w
  unfold Wp at *
  cases hy : y w with
  | ok a w' =>
      rw [hy] at hw h
      rw [hw]
      exact h
  | error e w' =>
      rw [hy] at hw h
      rw [hw]
      exact h

/-- The test of the state that `hal_init` begins with. -/
theorem destroyed {a : α} (h : Erases y x) :
    Erases (do let d ← watch_destroyed
               if d then return a else y)
      (do let s ← get
          if s.hal_data ≠ 0 ∧ s.shm.state = .destroyed then return a else x) := by
  let test : Prog Machine Bool := do
    let s ← get
    if s.hal_data ≠ 0 then look fun m => decide (m.state = .destroyed) else return false
  have htest : Erases watch_destroyed test := .bind .quietly fun _ => .ite .accessing .pure
  refine (htest.bind fun d => .ite .pure h).of_eq (funext fun s => ?_)
  have hval : test s = .ok (decide (s.hal_data ≠ 0 ∧ s.shm.state = .destroyed)) s := by
    show (if s.hal_data ≠ 0 then _ else _ : Prog Machine Bool) s = _
    by_cases h₀ : s.hal_data = 0 <;> simp [h₀] <;> rfl
  show _ = EStateM.bind test _ s
  unfold EStateM.bind
  simp only [hval, decide_eq_true_eq]
  rfl

theorem init_lib : Erases (watch_init_lib K) (hal_init_lib (rtapi K)) :=
  .destroyed <| .bind .quietly fun _ => .bind .quietly fun _ => .bind .quietly fun _ => .ite .pure <|
    .bind .quietly fun _ => .bind .quietly fun _ =>
    .ite (.bind .quietly fun _ => .pure) <| .bind .quietly fun _ =>
    .ite (.bind .quietly fun _ => .pure) <| .bind .quietly fun _ => .bind .accessing fun _ =>
    .ite (.bind .quietly fun _ => .pure) .pure

theorem init_comp (name : CStr) : Erases (watch_init_comp K name) (hal_init_comp (rtapi K) name) :=
  .bind .quietly fun _ => .ite .pure <| .bind .accessing fun _ => .bind .accessing fun _ =>
    .ite (.bind .accessing fun _ => .bind .quietly fun _ => .pure) <| .bind .accessing fun _ =>
    .ite (.bind .accessing fun _ => .bind .quietly fun _ => .pure) <| .bind .quietly fun _ =>
    .bind .accessing fun _ => .bind .accessing fun _ => .bind .accessing fun _ =>
    .bind .accessing fun _ => .bind .quietly fun _ => .pure

theorem init (name : Option CStr) : Erases (watch_init K name) (hal_init (rtapi K) name) := by
  rcases name with _ | name
  · exact .pure
  · exact .ite .pure <| .bind .quietly fun _ =>
      .ite (.bind .init_lib fun _ => .ite .pure (.init_comp name)) (.init_comp name)

theorem app_main : Erases (watch_app_main K) (hal_app_main (rtapi K)) :=
  .bind .quietly fun _ => .bind .quietly fun _ => .ite .pure <| .bind .quietly fun _ =>
    .bind .quietly fun _ => .ite (.bind .quietly fun _ => .pure) <| .bind .quietly fun _ =>
    .ite (.bind .quietly fun _ => .bind .quietly fun _ => .pure) <| .bind .quietly fun _ =>
    .bind .accessing fun _ => .bind .accessing fun _ =>
    .ite (.bind .quietly fun _ => .bind .quietly fun _ => .pure) .pure

theorem app_exit : Erases (watch_app_exit K) (hal_app_exit (rtapi K)) := by
  refine Erases.of_eq (.bind .quietly fun _ => .ite .pure <| .bind .accessing fun _ => .ite .pure <|
    .bind .accessing fun _ => .bind .quietly fun _ => .bind .quietly fun _ => .bind .quietly fun _ =>
    .accessing) (funext fun s => ?_)
  show (if s.hal_data = 0 then _ else _ : Prog Machine Unit) s =
    (if s.hal_data = 0 then _ else _ : Prog Machine Unit) s
  by_cases h₀ : s.hal_data = 0
  · rw [if_pos h₀, if_pos h₀]
  · rw [if_neg h₀, if_neg h₀]
    show (if s.shm.state = .destroyed then _ else _ : Prog Machine Unit) s =
      (if decide (s.shm.state = .destroyed) = true then _ else _ : Prog Machine Unit) s
    simp only [decide_eq_true_eq]

end Erases

/-- **Without the records the watched operations are the operations.** -/
theorem Api.erases (a : Api) : Erases (a.watch K) (a.run K) := by
  have hop : ∀ op : Op, Erases (do
      let s ← quietly get
      if Op.Guarded op ∧ s.hal_data = 0 then quietly (op.run (rtapi K))
      else accessing (op.run (rtapi K)) : Watch Unit) (op.run (rtapi K)) := fun op =>
    Erases.of_eq (.bind .quietly fun _ => .ite .quietly .accessing) (funext fun s => by
      show op.run (rtapi K) s = (if _ then op.run (rtapi K) else op.run (rtapi K)) s
      rw [ite_self])
  cases a with
  | hal_app_main => exact .bind .app_main fun _ => .pure
  | hal_app_exit => exact .app_exit
  | of op =>
      cases op with
      | hal_init name => exact .bind (.init name) fun _ => .pure
      | _ => exact hop _

/-! ### What stays mapped -/

variable {s s' : State Machine} {w w' : Watched}

/-- The library handle is that of the mapped segment once `hal_data` is set. -/
structure Anchored (s : State Machine) : Prop where
  keyed : Keyed s.rt.process
  mounts : s.hal_data ≠ 0 → ∃ i : Nat, s.lib_mem_id = i ∧ s.rt.process.Mounts i s.hal_data

/-- The pointer and the handle stay as they are. -/
structure Fixed (s s' : State Machine) : Prop where
  hal_data : s'.hal_data = s.hal_data
  mem_id : s'.lib_mem_id = s.lib_mem_id
  keyed : Keyed s.rt.process → Keyed s'.rt.process
  slot : Keyed s.rt.process → ∀ i a, s.rt.process.Mounts i a →
    s'.rt.process.shmem_array i = s.rt.process.shmem_array i

instance : Std.Refl Fixed where
  refl _ := ⟨rfl, rfl, id, fun _ _ _ _ => rfl⟩

instance : IsTrans (State Machine) Fixed where
  trans _ _ _ h h' :=
    { hal_data := h'.hal_data.trans h.hal_data
      mem_id := h'.mem_id.trans h.mem_id
      keyed := fun hk => h'.keyed (h.keyed hk)
      slot := fun hk i a hi =>
        (h'.slot (h.keyed hk) i a (hi.of_slot (h.slot hk i a hi))).trans (h.slot hk i a hi) }

theorem Fixed.outer : Outer (rtapi K) Fixed where
  inside _ _ _ _ _ := ⟨rfl, rfl, id, fun _ _ _ _ => rfl⟩
  step _ _ hs := ⟨rfl, rfl, fun hk => (hk.step hs).1, fun hk i _ hi => (hk.step hs).2 i hi.foreign⟩

/-- The segment stays mapped where it is. -/
def Anchors (s s' : State Machine) : Prop :=
  Anchored s → Anchored s' ∧ (s.hal_data ≠ 0 → s'.hal_data = s.hal_data)

theorem Fixed.anchors (h : Fixed s s') : Anchors s s' := fun ht => by
  refine ⟨⟨h.keyed ht.keyed, fun h₀ => ?_⟩, fun _ => h.hal_data⟩
  rw [h.hal_data, h.mem_id] at *
  exact (ht.mounts h₀).imp fun i ⟨e, hi⟩ => ⟨e, hi.of_slot (h.slot ht.keyed i _ hi)⟩

/-- The open handles keep different keys. -/
def Keying (s s' : State Machine) : Prop := Keyed s.rt.process → Keyed s'.rt.process

instance : Std.Refl Keying where
  refl _ := id

instance : IsTrans (State Machine) Keying where
  trans _ _ _ h h' hk := h' (h hk)

theorem Keying.app_exit : Along Keying (hal_app_exit (rtapi K)) := by
  have ho : Outer (rtapi K) Keying :=
    { inside := fun _ _ _ _ _ => id
      step := fun _ _ hs hk => (hk.step hs).1 }
  refine .bind .get fun _ => .ite .pure <| .ite .pure <| .bind ho.hal_app_teardown fun _ =>
    .bind .get fun s => .bind (.modifyGet fun s' hk => ?_) fun _ =>
    .bind (ho.call fun _ => .exit _) fun _ => ho.change
  exact perform_of_every (K := K) (m := s'.rt)
    (hk.shmem_delete_any (l := []) s.lib_mem_id s.lib_module_id)

instance : Std.Refl Anchors where
  refl _ h := ⟨h, fun _ => rfl⟩

instance : IsTrans (State Machine) Anchors where
  trans _ _ _ h h' ht := by
    obtain ⟨h₁, e₁⟩ := h ht
    obtain ⟨h₂, e₂⟩ := h' h₁
    exact ⟨h₂, fun h₀ => (e₂ (by rw [e₁ h₀]; exact h₀)).trans (e₁ h₀)⟩

theorem Anchors.outer : Outer (rtapi K) Anchors where
  inside s shm locks strikes ref_cnt :=
    (Fixed.outer (K := K).inside s shm locks strikes ref_cnt).anchors
  step s rt hs := (Fixed.outer.step s rt hs).anchors

/-! ### Attaching the segment -/

/-- `rtapi_shmem_new` for HAL, right after `rtapi_init`. -/
theorem Anchored.shmem_new (h : Anchored s)
    (hu : ∃ i : Nat, s.rt.process.uuid_mem_id = i ∧ s.rt.process.Valid i) (id : Int)
    {n : Int × Machine} (hn : n = (rtapi K).shmem_new HAL_KEY id HAL_SIZE s.rt) :
    Anchored { s with rt := n.2, lib_mem_id := n.1 } ∧
      (0 ≤ n.1 → ∃ (i : Nat) (a : Addr), n.1 = i ∧ n.2.process.Mounts i a ∧ a ≠ 0 ∧
        (s.hal_data ≠ 0 → a = s.hal_data)) := by
  have hcall : perform K (rtapi_shmem_new HAL_KEY id (HAL_SIZE : Int).toNat) s.rt = n := hn.symm
  have hnew := perform_of_every (K := K) (m := s.rt) (x := rtapi_shmem_new HAL_KEY id _)
    (h.keyed.shmem_new (l := []) id (HAL_SIZE : Int).toNat (.inr hu))
  rw [hcall] at hnew
  obtain ⟨hk, -, -, hr⟩ := hnew
  by_cases h₀ : s.hal_data = 0
  · refine ⟨⟨hk, fun h => absurd h₀ h⟩, fun hpos => ?_⟩
    obtain ⟨i, hi, hv, hkey⟩ := hr.resolve_left (Int.not_lt.mpr hpos)
    exact ⟨i, _, hi, ⟨hv, hkey, rfl⟩, hk.mem i hv, fun h => absurd h₀ h⟩
  · obtain ⟨i, -, hi⟩ := h.mounts h₀
    have hagain := perform_of_every (K := K) (m := s.rt) (h.keyed.shmem_new_mounted (l := []) hi id)
    rw [hcall] at hagain
    obtain ⟨hni, -, hm⟩ := hagain
    have hi' := hm i _ hi
    exact ⟨⟨hk, fun _ => ⟨i, hni, hi'⟩⟩, fun _ => ⟨i, s.hal_data, hni, hi', h₀, fun _ => rfl⟩⟩

/-- `rtapi_shmem_getptr` of the handle of HAL. -/
theorem getptr_mounted {m : Machine} {i : Nat} {a : Addr} (hk : Keyed m.process)
    (hi : m.process.Mounts i a) : ((rtapi K).shmem_getptr i m).1 = (0, a) ∧
      ((rtapi K).shmem_getptr i m).2.process = m.process := by
  have hget : Every (rtapi_shmem_getptr i) m.process [] fun _ r s' => r = (0, a) ∧ s' = m.process := by
    refine (rtapi_shmem_getptr_spec (i : Int)).mono fun _ r s' ⟨hs, _, _, hp⟩ => ⟨?_, hs⟩
    rw [← hi.mem]
    exact hp i rfl (hk.low i hi.valid) hi.valid (hk.active i hi.valid)
  exact perform_of_every hget

/-! ### Sound programs -/

/-- What is mapped is as it should be, and every access was to the mapped segment. -/
structure Sound (w : Watched) : Prop where
  anchored : Anchored w.hal
  mapped : ∀ a ∈ w.accesses, a.Mapped

variable {Q : α → Watched → Prop} {E : Stop → Watched → Prop}

theorem wp_quietly {x : Prog Machine α} : Wp (quietly x) w Q E ↔
    Wp x w.hal (fun a s => Q a { w with hal := s }) fun e s => E e { w with hal := s } := by
  unfold Wp quietly
  cases x w.hal <;> exact Iff.rfl

theorem wp_accessing {x : Prog Machine α} : Wp (accessing x) w Q E ↔
    Wp x w.hal (fun a s => Q a ⟨s, ⟨w.hal.hal_data, w.hal.rt.process⟩ :: w.accesses⟩)
      fun e s => E e ⟨s, ⟨w.hal.hal_data, w.hal.rt.process⟩ :: w.accesses⟩ := by
  unfold accessing
  rw [wp_bind, wp_modify, wp_quietly]

theorem Anchored.access (h : Anchored s) (h₀ : s.hal_data ≠ 0) :
    (⟨s.hal_data, s.rt.process⟩ : Access).Mapped :=
  ⟨h₀, (h.mounts h₀).imp fun _ hi => hi.2⟩

/-- With the segment mapped it stays so, and every access is to it. -/
def Upheld (w w' : Watched) : Prop :=
  Sound w → w.hal.hal_data ≠ 0 → Sound w' ∧ w'.hal.hal_data = w.hal.hal_data

instance : Std.Refl Upheld where
  refl _ h _ := ⟨h, rfl⟩

instance : IsTrans Watched Upheld where
  trans _ _ _ h h' hs h₀ := by
    obtain ⟨h₁, e₁⟩ := h hs h₀
    obtain ⟨h₂, e₂⟩ := h' h₁ (by rw [e₁]; exact h₀)
    exact ⟨h₂, e₂.trans e₁⟩

namespace Upheld

variable {x : Prog Machine α}

theorem quietly (hx : Along Anchors x) : Along Upheld (quietly x) := fun w => by
  have hstep : ∀ s, Anchors w.hal s → Upheld w { w with hal := s } := fun s hs h h₀ =>
    ⟨⟨(hs h.anchored).1, h.mapped⟩, (hs h.anchored).2 h₀⟩
  exact wp_quietly.mpr ((hx w.hal).mono (fun _ s hs => hstep s hs) fun _ s hs => hstep s hs)

theorem accessing (hx : Along Anchors x) : Along Upheld (accessing x) := fun w => by
  have hstep : ∀ s, Anchors w.hal s →
      Upheld w ⟨s, ⟨w.hal.hal_data, w.hal.rt.process⟩ :: w.accesses⟩ := fun s hs h h₀ =>
    ⟨⟨(hs h.anchored).1, List.forall_mem_cons.mpr ⟨h.anchored.access h₀, h.mapped⟩⟩,
      (hs h.anchored).2 h₀⟩
  exact wp_accessing.mpr ((hx w.hal).mono (fun _ s hs => hstep s hs) fun _ s hs => hstep s hs)

end Upheld

/-- Sound again, with the segment where it was if it was mapped. -/
def Kept (w w' : Watched) : Prop :=
  Sound w' ∧ (w.hal.hal_data ≠ 0 → w'.hal.hal_data = w.hal.hal_data)

theorem Kept.upheld {w'' : Watched} (h : Kept w w') (h₀ : w'.hal.hal_data ≠ 0) (hu : Upheld w' w'') :
    Kept w w'' ∧ w''.hal.hal_data ≠ 0 := by
  obtain ⟨hs, e⟩ := hu h.1 h₀
  exact ⟨⟨hs, fun hw => e.trans (h.2 hw)⟩, by rw [e]; exact h₀⟩

theorem Kept.trans {w'' : Watched} (h : Kept w w') (h' : Kept w' w'') : Kept w w'' :=
  ⟨h'.1, fun h₀ => (h'.2 (by rw [h.2 h₀]; exact h₀)).trans (h.2 h₀)⟩

theorem Kept.along {y : Watch α} (h : Kept w w') (h₀ : w'.hal.hal_data ≠ 0) (hy : Along Upheld y) :
    Wp y w' (fun _ w'' => Kept w w'') fun _ w'' => Kept w w'' :=
  (hy w').mono (fun _ _ hw => (h.upheld h₀ hw).1) fun _ _ hw => (h.upheld h₀ hw).1

/-- A call of RTAPI. -/
theorem Kept.step {rt : Machine} (h : Kept w w') (hs : (rtapi K).Step w'.hal.rt rt) :
    Kept w { w' with hal := { w'.hal with rt := rt } } :=
  ⟨⟨((Anchors.outer.step w'.hal rt hs) h.1.anchored).1, h.1.mapped⟩, h.2⟩

theorem watch_destroyed_spec (h : Sound w) :
    Wp watch_destroyed w (fun _ w' => Kept w w' ∧ w'.hal = w.hal) E := by
  unfold watch_destroyed
  rw [wp_bind, wp_quietly, wp_get]
  refine .ite (fun h₀ => ?_) fun h₀ => ⟨⟨h, fun _ => rfl⟩, rfl⟩
  rw [wp_accessing, wp_look]
  exact ⟨⟨⟨h.anchored, List.forall_mem_cons.mpr ⟨h.anchored.access h₀, h.mapped⟩⟩, fun _ => rfl⟩, rfl⟩

section
variable {Q : Int → Watched → Prop} {lost rest : Int → Watch Int}

/-- The segment is attached, or once more, and `hal_data` is set. -/
theorem wp_attach (h : Kept w w') {id : Int}
    (hu : ∃ i : Nat, w'.hal.rt.process.uuid_mem_id = i ∧ w'.hal.rt.process.Valid i)
    (hfail : ∀ w'', Kept w w'' → Q (-EINVAL) w'')
    (hrest : ∀ mem_id w'', Kept w w'' → w''.hal.hal_data ≠ 0 → Wp (rest mem_id) w'' Q E) :
    Wp (do
      let mem_id ← quietly (call ((rtapi K).shmem_new HAL_KEY id HAL_SIZE))
      quietly (modify fun s => { s with lib_mem_id := mem_id })
      if mem_id < 0 then
        let _ ← quietly (call ((rtapi K).exit id))
        return -EINVAL
      let (retval, mem) ← quietly (call ((rtapi K).shmem_getptr mem_id))
      if retval < 0 then
        lost mem_id
      else
        quietly (modify fun s => { s with hal_shmem_base := mem, hal_data := mem })
        rest mem_id) w' Q E := by
  obtain ⟨hs, hpos⟩ := h.1.anchored.shmem_new (K := K) hu id rfl
  rw [wp_bind, wp_quietly, wp_call, wp_bind, wp_quietly, wp_modify]
  set n := (rtapi K).shmem_new HAL_KEY id HAL_SIZE w'.hal.rt with hn
  have h₁ : Kept w { w' with hal := { w'.hal with rt := n.2, lib_mem_id := n.1 } } :=
    ⟨⟨hs, h.1.mapped⟩, h.2⟩
  refine .ite (fun _ => ?_) fun hn₀ => ?_
  · rw [wp_bind, wp_quietly, wp_call]
    exact hfail _ (h₁.step (.exit id))
  obtain ⟨i, a, hi, hm, ha, hsame⟩ := hpos (Int.not_lt.mp hn₀)
  obtain ⟨hp, hproc⟩ := getptr_mounted (K := K) hs.keyed hm
  rw [wp_bind, wp_quietly, wp_call]
  simp only [hi, hp]
  refine .ite (fun hneg => absurd hneg (show ¬ (0 : Int) < 0 by decide)) fun _ => ?_
  rw [wp_bind, wp_quietly, wp_modify]
  refine hrest _ _ ⟨⟨⟨?_, fun _ => ⟨i, rfl, ?_⟩⟩, h.1.mapped⟩, fun h₀ => ?_⟩ ha
  · show Keyed ((rtapi K).shmem_getptr i n.2).2.process
    rw [hproc]
    exact hs.keyed
  · show ((rtapi K).shmem_getptr i n.2).2.process.Mounts i a
    rw [hproc]
    exact hm
  · exact (hsame (by rw [h.2 h₀]; exact h₀)).trans (h.2 h₀)

end

section
variable {Q : Int → Watched → Prop} {rest : Int → Watch Int}

/-- `rtapi_init`, which takes the UUID segment or fails. -/
theorem wp_init (h : Kept w w') {modname : CStr} (hfail : ∀ w'', Kept w w'' → Q (-EINVAL) w'')
    (hrest : ∀ id w'', Kept w w'' →
      (∃ i : Nat, w''.hal.rt.process.uuid_mem_id = i ∧ w''.hal.rt.process.Valid i) →
      Wp (rest id) w'' Q E) :
    Wp (do
      let id ← quietly (call ((rtapi K).init modname))
      quietly (modify fun s => { s with lib_module_id := id })
      if id < 0 then
        return -EINVAL
      rest id) w' Q E := by
  have hinit := perform_of_every (K := K) (m := w'.hal.rt)
    (h.1.anchored.keyed.rtapi_init (l := []) modname)
  have h₁ := h.step (.init (R := rtapi K) modname)
  have h₂ : Kept w { w' with hal := { w'.hal with
      rt := ((rtapi K).init modname w'.hal.rt).2
      lib_module_id := ((rtapi K).init modname w'.hal.rt).1 } } :=
    ⟨⟨⟨h₁.1.anchored.keyed, h₁.1.anchored.mounts⟩, h₁.1.mapped⟩, h₁.2⟩
  rw [wp_bind, wp_quietly, wp_call, wp_bind, wp_quietly, wp_modify]
  exact .ite (fun _ => hfail _ h₂) fun hid => hrest _ _ h₂ (hinit.2.2 (Int.not_lt.mp hid))

end

theorem watch_init_lib_spec (h : Sound w) :
    Wp (watch_init_lib K) w (fun r w' => Kept w w' ∧ (r = 0 → w'.hal.hal_data ≠ 0))
      fun _ w' => Kept w w' := by
  have hneg : -EINVAL ≠ 0 := by decide
  unfold watch_init_lib
  rw [wp_bind]
  refine (watch_destroyed_spec h).mono (fun d w₁ ⟨h₁, _⟩ => ?_) fun _ _ => id
  refine .ite (fun _ => ⟨h₁, fun e => absurd e hneg⟩) fun _ => ?_
  rw [wp_bind, wp_quietly, wp_call]
  refine wp_init (h₁.step .getpid) (fun w₂ h₂ => ⟨h₂, fun e => absurd e hneg⟩) fun id w₂ h₂ hu => ?_
  refine wp_attach h₂ hu (fun w₃ h₃ => ⟨h₃, fun e => absurd e hneg⟩) fun mem_id w₃ h₃ h₀ => ?_
  rw [wp_bind]
  refine (Upheld.accessing Anchors.outer.init_hal_data w₃).mono (fun r w₄ hw => ?_) fun _ w₄ hw =>
    (h₃.upheld h₀ hw).1
  obtain ⟨h₄, h₀'⟩ := h₃.upheld h₀ hw
  refine .ite (fun _ => ?_) fun _ => ⟨h₄, fun _ => h₀'⟩
  rw [wp_bind, wp_quietly, wp_call]
  exact ⟨h₄.step (.exit id), fun e => absurd e hneg⟩

/-- `hal_init_lib` without the records. -/
theorem Anchors.lib : Along Anchors (hal_init_lib (rtapi K)) := fun s => by
  by_cases hs : Anchored s
  · refine Erases.wp (w := ⟨s, []⟩) .init_lib ((watch_init_lib_spec ⟨hs, by simp⟩).mono ?_ ?_)
    · exact fun _ w' hw _ => ⟨hw.1.1.anchored, hw.1.2⟩
    · exact fun _ w' hw _ => ⟨hw.1.anchored, hw.2⟩
  · exact Wp.of_forall (fun _ _ h => absurd h hs) fun _ _ h => absurd h hs

/-- `init_hal_data` never fails. -/
theorem init_hal_data_returns (R : Rtapi Machine) (s : State Machine) :
    Wp (init_hal_data R) s (fun r _ => r = 0) fun _ _ => True := by
  unfold init_hal_data
  rw [wp_bind]
  exact .of_forall (fun _ _ => rfl) fun _ _ => trivial

theorem watch_app_main_spec (h : Sound w) :
    Wp (watch_app_main K) w (fun _ w' => Kept w w') fun _ w' => Kept w w' := by
  unfold watch_app_main
  refine wp_init ⟨h, fun _ => rfl⟩ (fun _ => id) fun id w₂ h₂ hu => ?_
  refine wp_attach h₂ hu (fun w₃ h₃ => h₃) fun mem_id w₃ h₃ h₀ => ?_
  rw [wp_bind]
  refine (Upheld.accessing (Anchors.outer (K := K)).change w₃).mono (fun _ w₄ hw => ?_) fun _ w₄ hw =>
    (h₃.upheld h₀ hw).1
  obtain ⟨h₄, h₀₄⟩ := h₃.upheld h₀ hw
  rw [wp_bind]
  refine (Upheld.accessing Anchors.outer.init_hal_data w₄).with_eq.mono
    (fun r w₅ ⟨hrun, hw⟩ => ?_) fun _ w₅ hw => (h₄.upheld h₀₄ hw).1
  have hret : Wp (accessing (init_hal_data (rtapi K))) w₄ (fun r _ => r = 0) fun _ _ => True :=
    wp_accessing.mpr (init_hal_data_returns _ _)
  exact .ite (fun hr => absurd (hret.of_ok hrun) hr) fun _ => (h₄.upheld h₀₄ hw).1

theorem watch_init_comp_spec (h : Sound w) (name : CStr)
    (h₀ : 0 ≤ ((rtapi K).init (rtapi_name name) w.hal.rt).1 → w.hal.hal_data ≠ 0) :
    Wp (watch_init_comp K name) w (fun _ w' => Kept w w') fun _ w' => Kept w w' := by
  have ho := Anchors.outer (K := K)
  unfold watch_init_comp
  rw [wp_bind, wp_quietly, wp_call]
  have h₁ := Kept.step ⟨h, fun _ => rfl⟩ (.init (R := rtapi K) (rtapi_name name))
  refine .ite (fun _ => h₁) fun hid => h₁.along (h₀ (Int.not_lt.mp hid)) ?_
  -- from here on the segment is mapped
  have hrefuse : ∀ e : Int, Along Upheld (do
      accessing rtapi_mutex_give
      let _ ← quietly (call ((rtapi K).exit ((rtapi K).init (rtapi_name name) w.hal.rt).1))
      return e : Watch Int) := fun e =>
    .bind (Upheld.accessing ho.mutex_give) fun _ =>
      .bind (Upheld.quietly (ho.call fun _ => .exit _)) fun _ => .pure
  exact .bind (Upheld.accessing ho.mutex_get) fun _ => .bind (Upheld.accessing Keeps.walk) fun _ =>
    .ite (hrefuse _) <| .bind (Upheld.accessing ho.take) fun _ => .ite (hrefuse _) <|
    .bind (Upheld.quietly .get) fun _ => .bind (Upheld.accessing ho.change) fun _ =>
    .bind (Upheld.accessing ho.change) fun _ => .bind (Upheld.accessing ho.mutex_give) fun _ =>
    .bind (Upheld.accessing ho.change) fun _ =>
    .bind (Upheld.quietly (.modify fun s => ho.inside s s.shm s.locks s.strikes _)) fun _ => .pure

theorem watch_init_spec (h : Sound w) (name : Option CStr)
    (h₀ : ∀ n, name = some n → n.length ≤ HAL_NAME_LEN → w.hal.lib_mem_id ≠ 0 →
      0 ≤ ((rtapi K).init (rtapi_name n) w.hal.rt).1 → w.hal.hal_data ≠ 0) :
    Wp (watch_init K name) w (fun _ w' => Kept w w') fun _ w' => Kept w w' := by
  rcases name with _ | name
  · exact ⟨h, fun _ => rfl⟩
  unfold watch_init
  refine .ite (fun _ => ⟨h, fun _ => rfl⟩) fun hn => ?_
  rw [wp_bind, wp_quietly, wp_get]
  refine .ite (fun _ => ?_) fun hid =>
    watch_init_comp_spec h name (h₀ name rfl (Nat.not_lt.mp hn) hid)
  rw [wp_bind]
  refine (watch_init_lib_spec h).mono (fun r w₁ ⟨h₁, hr⟩ => ?_) fun _ _ => id
  refine .ite (fun _ => h₁) fun hr0 => ?_
  refine (watch_init_comp_spec h₁.1 name fun _ => hr (Decidable.not_not.mp hr0)).mono ?_ ?_
  · exact fun _ _ h₂ => h₁.trans h₂
  · exact fun _ _ h₂ => h₁.trans h₂

theorem watch_app_exit_spec (h : Sound w)
    (h₀ : w.hal.hal_data ≠ 0 → w.hal.shm.state ≠ .destroyed →
      0 < toInt32 ((w.hal.rt.process.shmem_array w.hal.lib_mem_id.toNat).count - 1)) :
    Wp (watch_app_exit K) w (fun _ w' => Kept w w') fun _ w' => Kept w w' := by
  have ho := Anchors.outer (K := K)
  unfold watch_app_exit
  rw [wp_bind, wp_quietly, wp_get]
  refine .ite (fun _ => ⟨h, fun _ => rfl⟩) fun hd => ?_
  rw [wp_bind, wp_accessing, wp_look]
  have h₁ : Kept w ⟨w.hal, ⟨w.hal.hal_data, w.hal.rt.process⟩ :: w.accesses⟩ :=
    ⟨⟨h.anchored, List.forall_mem_cons.mpr ⟨h.anchored.access hd, h.mapped⟩⟩, fun _ => rfl⟩
  refine .ite (fun _ => h₁) fun hstate => ?_
  have hcount := h₀ hd (by simpa using hstate)
  obtain ⟨i, hi, hm⟩ := h.anchored.mounts hd
  rw [hi, Int.toNat_natCast] at hcount
  -- the threads are deleted with the segment mapped
  rw [wp_bind, wp_accessing]
  set w₁ : Watched := ⟨w.hal, ⟨w.hal.hal_data, w.hal.rt.process⟩ :: w.accesses⟩ with hw₁
  have htorn : ∀ s, Fixed w.hal s →
      Kept w ⟨s, ⟨w₁.hal.hal_data, w₁.hal.rt.process⟩ :: w₁.accesses⟩ := fun s hs =>
    ⟨⟨(hs.anchors h.anchored).1, List.forall_mem_cons.mpr ⟨h.anchored.access hd, h₁.1.mapped⟩⟩,
      fun _ => hs.hal_data⟩
  refine (Fixed.outer.hal_app_teardown (R := rtapi K) w.hal).mono (fun _ s hs => ?_) fun _ s hs =>
    htorn s hs
  have h₂ := htorn s hs
  have hslot := hs.slot h.anchored.keyed i _ hm
  rw [wp_bind, wp_quietly, wp_get, wp_bind, wp_quietly, wp_call]
  -- the handle keeps a reference
  have hdel := perform_of_every (K := K) (m := s.rt)
    ((h₂.1.anchored.keyed).shmem_delete (l := []) (i := i) (by rw [hslot]; exact hcount)
      s.lib_module_id)
  have hid : s.lib_mem_id = i := hs.mem_id.trans hi
  have h₃ : Kept w ⟨{ s with rt := ((rtapi K).shmem_delete s.lib_mem_id s.lib_module_id s.rt).2 },
      ⟨w₁.hal.hal_data, w₁.hal.rt.process⟩ :: w₁.accesses⟩ := by
    rw [hid]
    refine ⟨⟨⟨hdel.1, fun h₀ => ⟨i, rfl, ?_⟩⟩, h₂.1.mapped⟩, h₂.2⟩
    obtain ⟨j, hj, hmj⟩ := h₂.1.anchored.mounts h₀
    obtain rfl : j = i := by
      have : (j : Int) = i := hj.symm.trans hid
      omega
    exact hdel.2 j _ hmj
  rw [wp_bind, wp_quietly, wp_call]
  have h₄ := h₃.step (.exit (R := rtapi K) s.lib_module_id)
  exact h₄.along (by rw [h₄.2 hd]; exact hd) (Upheld.accessing ho.change)

/-! ### One operation -/

variable (K) in
/-- The operation is not called too early, and `hal_app_exit` keeps a reference to the segment. -/
def Api.Careful (s : State Machine) : Api → Prop
  | .hal_app_main => True
  | .hal_app_exit => s.hal_data ≠ 0 → s.shm.state ≠ .destroyed →
      0 < toInt32 ((s.rt.process.shmem_array s.lib_mem_id.toNat).count - 1)
  | .of (.hal_init name) => ∀ n, name = some n → n.length ≤ HAL_NAME_LEN → s.lib_mem_id ≠ 0 →
      0 ≤ ((rtapi K).init (rtapi_name n) s.rt).1 → s.hal_data ≠ 0
  | .of op => ¬ Op.Guarded op → s.hal_data ≠ 0

/-- **One operation.** -/
theorem Api.watch_spec (h : Sound w) (a : Api) (ha : a.Careful K w.hal) :
    Wp (a.watch K) w (fun _ w' => Kept w w') fun _ w' => Kept w w' := by
  have hop : ∀ op : Op, (¬ Op.Guarded op → w.hal.hal_data ≠ 0) → Wp (do
      let s ← quietly get
      if Op.Guarded op ∧ s.hal_data = 0 then quietly (op.run (rtapi K))
      else accessing (op.run (rtapi K)) : Watch Unit) w (fun _ w' => Kept w w')
      fun _ w' => Kept w w' := fun op hg => by
    rw [wp_bind, wp_quietly, wp_get]
    have hlong : Along Anchors (op.run (rtapi K)) := Anchors.outer.op Anchors.lib op
    refine .ite (fun hz => ?_) fun hz => ?_
    · rw [wp_quietly]
      have hstep : ∀ s, Anchors w.hal s → Kept w ⟨s, w.accesses⟩ := fun s hs =>
        ⟨⟨(hs h.anchored).1, h.mapped⟩, (hs h.anchored).2⟩
      exact (hlong w.hal).mono (fun _ s hs => hstep s hs) fun _ s hs => hstep s hs
    · have hd : w.hal.hal_data ≠ 0 := by
        by_cases hgd : Op.Guarded op = true
        · exact fun e => hz ⟨hgd, e⟩
        · exact hg hgd
      exact Kept.along ⟨h, fun _ => rfl⟩ hd (Upheld.accessing hlong)
  cases a with
  | hal_app_main => exact wp_bind.mpr (watch_app_main_spec h)
  | hal_app_exit => exact watch_app_exit_spec h ha
  | of op =>
      cases op with
      | hal_init name => exact wp_bind.mpr (watch_init_spec h name ha)
      | _ => exact hop _ ha

theorem bind_ok {x : Prog Machine α} {f : α → Prog Machine β} {a : α} (h : x s = .ok a s) :
    (x >>= f) s = f a s := by
  show EStateM.bind x f s = _
  unfold EStateM.bind
  rw [h]

theorem bind_error {x : Prog Machine α} {f : α → Prog Machine β} {e : Stop} (h : x s = .error e s) :
    (x >>= f) s = .error e s := by
  show EStateM.bind x f s = _
  unfold EStateM.bind
  rw [h]

/-- `Guarded` says what it should: an operation that tests `hal_data` does nothing while it is
null. -/
theorem Op.guarded_null {op : Op} (hg : Op.Guarded op) (hi : ∀ name, op ≠ .hal_init name)
    (h₀ : s.hal_data = 0) : op.run (rtapi K) s = .ok () s := by
  cases op with
  | hal_init name => exact absurd rfl (hi name)
  | hal_get_stats stats => exact bind_ok (congrFun (if_pos (.inl h₀)) s)
  | hal_set_constructor comp_id make => exact absurd hg Bool.false_ne_true
  | hal_ready comp_id => exact absurd hg Bool.false_ne_true
  | hal_unready comp_id => exact absurd hg Bool.false_ne_true
  | hal_set_unready comp_id => exact absurd hg Bool.false_ne_true
  | hal_comp_name comp_id => exact absurd hg Bool.false_ne_true
  | teardown => exact absurd hg Bool.false_ne_true
  | _ => exact bind_ok (congrFun (if_pos h₀) s)

/-- An operation that takes the mutex first stops while `hal_data` is null. -/
theorem Op.unguarded_null {op : Op} (hg : ¬ Op.Guarded op) (ht : op ≠ .teardown)
    (h₀ : s.hal_data = 0) : op.run (rtapi K) s = .error .segv s := by
  have hget : (rtapi_mutex_get : Prog Machine Unit) s = .error .segv s :=
    congrFun (if_pos h₀) s
  cases op with
  | hal_set_constructor comp_id make => exact bind_error (bind_error hget)
  | hal_ready comp_id => exact bind_error (bind_error hget)
  | hal_unready comp_id => exact bind_error (bind_error hget)
  | hal_set_unready comp_id => exact bind_error (bind_error hget)
  | hal_comp_name comp_id => exact bind_error (bind_error hget)
  | teardown => exact absurd rfl ht
  | _ => exact absurd rfl hg

/-! ### Runs -/

variable (K) in
/-- The states of a process that calls the operations; at first it has not initialised HAL, and the
segment holds anything. -/
inductive Calls (allowed : State Machine → Api → Prop) : Watched → Prop
  | start (m : Segment) : Calls allowed ⟨{ fresh with shm := m }, []⟩
  | call {w w' : Watched} (a : Api) : Calls allowed w → allowed w.hal a →
      a.watch K w = .ok () w' → Calls allowed w'

theorem Calls.sound (hw : Calls K (fun s a => a.Careful K s) w) : Sound w := by
  induction hw with
  | start m =>
      have hv : ∀ i, ¬ ({} : Process).Valid i := fun _ => show (0 : Int) ≠ SHMEM_MAGIC by decide
      exact ⟨⟨⟨fun i h => absurd h (hv i), fun i h => absurd h (hv i), fun i h => absurd h (hv i),
        fun i _ h => absurd h (hv i), fun i _ h => absurd h (hv i)⟩, fun h => absurd rfl h⟩, by simp⟩
  | call a _ ha hrun ih => exact ((a.watch_spec ih ha).of_ok hrun).1

/-- **Every access is to the mapped segment** in every run in which no operation comes too early and
`hal_app_exit` keeps a reference, also in an operation that stops. -/
theorem accesses_mapped (hw : Calls K (fun s a => a.Careful K s) w) (a : Api)
    (ha : a.Careful K w.hal) :
    Wp (a.watch K) w (fun _ w' => ∀ x ∈ w'.accesses, x.Mapped) fun _ w' =>
      ∀ x ∈ w'.accesses, x.Mapped :=
  (a.watch_spec hw.sound ha).mono (fun _ _ h => h.1.mapped) fun _ _ h => h.1.mapped

/-! ### Runs that compute -/

/-- Whether the program returns. -/
def returns (y : Watch Unit) (w : Watched) : Bool :=
  match y w with
  | .ok _ _ => true
  | .error _ _ => false

/-- The state in which the program returns or stops. -/
def reached (y : Watch Unit) (w : Watched) : Watched :=
  match y w with
  | .ok _ w' => w'
  | .error _ w' => w'

theorem reached_eq {y : Watch Unit} (h : returns y w = true) : y w = .ok () (reached y w) := by
  unfold returns at h
  unfold reached
  cases hy : y w with
  | ok a w' => rfl
  | error e w' =>
      rw [hy] at h
      cases h

/-- HAL is started, and started once more. -/
def startedTwice : Watched :=
  reached (Api.watch serving .hal_app_main) (reached (Api.watch serving .hal_app_main) ⟨fresh, []⟩)

theorem started_calls {allowed : State Machine → Api → Prop} (h : ∀ s, allowed s .hal_app_main) :
    Calls serving allowed (reached (Api.watch serving .hal_app_main) ⟨fresh, []⟩) :=
  .call .hal_app_main (.start {}) (h _) (reached_eq (by decide +kernel))

theorem accesses_mapped_sample :
    Wp (Api.watch serving .hal_app_exit) startedTwice (fun _ w' => ∀ x ∈ w'.accesses, x.Mapped)
      fun _ w' => ∀ x ∈ w'.accesses, x.Mapped :=
  accesses_mapped (.call .hal_app_main (started_calls fun _ => trivial) trivial
    (reached_eq (by decide +kernel))) .hal_app_exit fun _ _ => by decide +kernel

/-- HAL is started and ended. -/
def ended : Watched :=
  reached (Api.watch serving .hal_app_exit) (reached (Api.watch serving .hal_app_main) ⟨fresh, []⟩)

theorem ended_keyed : Keyed ended.hal.rt.process := by
  set w := reached (Api.watch serving .hal_app_main) ⟨fresh, []⟩ with hw
  have hk : Keyed w.hal.rt.process := (started_calls fun _ => trivial).sound.anchored.keyed
  have hrun : Api.watch serving .hal_app_exit w = .ok () ended := reached_eq (by decide +kernel)
  have herased := Api.erases (K := serving) .hal_app_exit w
  rw [hrun] at herased
  exact Keying.app_exit.of_ok herased hk

theorem hal_get_state_access (h₀ : w.hal.hal_data ≠ 0) :
    Wp (Api.watch K (.of .hal_get_state)) w
      (fun _ w' => ⟨w.hal.hal_data, w.hal.rt.process⟩ ∈ w'.accesses) fun _ _ => True := by
  unfold Api.watch
  rw [wp_bind, wp_quietly, wp_get]
  refine .ite (fun h => absurd h.2 h₀) fun _ => ?_
  rw [wp_accessing]
  exact .of_forall (fun _ _ => List.mem_cons_self) fun _ _ => trivial

/-- `hal_get_state` reads the state where the segment is mapped no more. -/
theorem ended_access : Calls serving (fun _ _ => True) ended ∧
    ∃ w', Api.watch serving (.of .hal_get_state) ended = .ok () w' ∧
      ∃ a ∈ w'.accesses, a.hal_data ≠ 0 ∧ ¬ a.Mapped := by
  have hd : ended.hal.hal_data ≠ 0 := by decide +kernel
  have hrun : Api.watch serving (.of .hal_get_state) ended = .ok () _ :=
    reached_eq (by decide +kernel)
  refine ⟨.call .hal_app_exit (started_calls fun _ => trivial) trivial
    (reached_eq (by decide +kernel)), _, hrun, _, (hal_get_state_access hd).of_ok hrun, hd, ?_⟩
  rintro ⟨-, i, hi⟩
  have hnone : ∀ j < MAX_SHM, (ended.hal.rt.process.shmem_array j).magic ≠ SHMEM_MAGIC := by
    decide +kernel
  exact hnone i (ended_keyed.low i hi.valid) hi.valid

end RTS.Uspace

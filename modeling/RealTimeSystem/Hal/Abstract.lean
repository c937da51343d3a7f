import RealTimeSystem.Hal.Program
import RealTimeSystem.Hal.Registry

/-!
# HAL — the operations on the registry

What the operations that register things, and the two that edit a schedule, come to when the
segment is seen as a registry: the return code and the events.  `new` is what the allocator
answers, the offset of the structure or `0`; `base` and `lock` are `hal_shmem_base` and
`hal_data->lock`.
-/

namespace RTS.Hal

namespace Registry

variable (g : Registry)

/-- The first component with an id. -/
def findComp (id : Int) : Option (Nat × Comp) := g.comps.find? fun p => p.2.comp_id = id

def findFunct (name : CStr) : Option (Nat × Funct) := g.functs.find? fun p => p.2.name = name

def findThread (name : CStr) : Option Slot := g.threads.find? fun s => s.thread.name = name

/-- Types a parameter may have. -/
def paramType (type : HalType) : Prop :=
  type = .bit ∨ type = .float ∨ type = .s32 ∨ type = .u32 ∨ type = .s64 ∨ type = .u64

instance (type : HalType) : Decidable (paramType type) := inferInstanceAs (Decidable (_ ∨ _))

/-- The common end of `hal_pin_new` and `hal_param_new`. -/
def register (comp_id : Int) (inShm : Bool) (new : Nat) (taken : Prop) [Decidable taken]
    (event : Nat → Event) : Int × List Event :=
  match g.findComp comp_id with
  | none => (-EINVAL, [])
  | some (c, comp) =>
      if ¬ inShm then (-EINVAL, [])
      else if comp.ready ≠ 0 then (-EINVAL, [])
      else if new = 0 then (-ENOMEM, [])
      else if taken then (-EINVAL, [])
      else (0, [event c])

def param_new (base : Addr) (lock : UInt8) (new : Nat) (name : CStr) (type : HalType)
    (dir : ParamDir) (data_addr : Addr) (comp_id : Int) : Int × List Event :=
  if ¬ paramType type then (-EINVAL, [])
  else if dir ≠ .ro ∧ dir ≠ .rw then (-EINVAL, [])
  else if name.length > HAL_NAME_LEN then (-EINVAL, [])
  else if lock &&& HAL_LOCK_LOAD ≠ 0 then (-EPERM, [])
  else
    g.register comp_id (SHMCHK base data_addr) new
      (∃ p ∈ g.params, p.2.name = rt_snprintf (HAL_NAME_LEN + 1) name) fun c =>
      .addParam new
        { data_ptr := data_addr - base, owner_ptr := c, oldname := 0, type := type, dir := dir
          name := rt_snprintf (HAL_NAME_LEN + 1) name }

def pin_new (base : Addr) (lock : UInt8) (new : Nat) (name : CStr) (type : HalType)
    (data_ptr_addr : Addr) (comp_id : Int) : Int × List Event :=
  if ¬ (paramType type ∨ type = .port) then (-EINVAL, [])
  else if name.length > HAL_NAME_LEN then (-EINVAL, [])
  else if lock &&& HAL_LOCK_LOAD ≠ 0 then (-EPERM, [])
  else
    g.register comp_id (SHMCHK base data_ptr_addr) new
      (∃ p ∈ g.pins, p.2.name = rt_snprintf (HAL_NAME_LEN + 1) name) fun c =>
      .addPin new
        { data_ptr_addr := data_ptr_addr - base, owner_ptr := c, signal := 0, oldname := 0
          type := type, name := rt_snprintf (HAL_NAME_LEN + 1) name }

/-- `hal_pin_newf`, `full` being the whole name. -/
def pin_newf (base : Addr) (lock : UInt8) (new : Nat) (type : HalType) (data_ptr_addr : Addr)
    (comp_id : Int) (full : CStr) : Int × List Event :=
  if full.length > HAL_NAME_LEN then (-ENOMEM, [])
  else g.pin_new base lock new (rt_snprintf (HAL_NAME_LEN + 1) full) type data_ptr_addr comp_id

/-- `hal_export_funct` up to the pin and the parameters of the function. -/
def export_funct (lock : UInt8) (new : Nat) (name : CStr) (funct arg : Addr)
    (uses_fp reentrant comp_id : Int) : Int × List Event :=
  if name.length > HAL_NAME_LEN then (-EINVAL, [])
  else if lock &&& HAL_LOCK_LOAD ≠ 0 then (-EPERM, [])
  else
    match g.findComp comp_id with
    | none => (-EINVAL, [])
    | some (c, comp) =>
        if comp.type = .user then (-EINVAL, [])
        else if comp.ready ≠ 0 then (-EINVAL, [])
        else if new = 0 then (-ENOMEM, [])
        else if ∃ p ∈ g.functs, p.2.name = rt_snprintf (HAL_NAME_LEN + 1) name then (-EINVAL, [])
        else (0, [.addFunct new
          { uses_fp := uses_fp, owner_ptr := c, reentrant := reentrant, users := 0, arg := arg
            funct := funct, name := rt_snprintf (HAL_NAME_LEN + 1) name }])

/-- `hal_init` when HAL is up: `id` is what RTAPI answered, `old` what the structure `new` still
holds.  The name of the component stays empty. -/
def init (base : Addr) (new : Nat) (old : Comp) (id : Int) (name : CStr) : Int × List Event :=
  if name.length > HAL_NAME_LEN then (-EINVAL, [])
  else if id < 0 then (-EINVAL, [])
  else if ∃ p ∈ g.comps, p.2.name = rt_snprintf (HAL_NAME_LEN + 1) name then (-EINVAL, [])
  else if new = 0 then (-ENOMEM, [])
  else (id, [.addComp new { old with
    comp_id := id, mem_id := 0, type := .realtime, ready := 0, pid := 0, shmem_base := base
    name := [], insmod_args := 0 }])

/-- The operations that change one field of a component; `f` refuses or gives the new record. -/
def set (comp_id : Int) (f : Comp → Option Comp) : Int × List Event :=
  match g.findComp comp_id with
  | none => (-EINVAL, [])
  | some (x, c) => (f c).elim (-EINVAL, []) fun c' => (0, [.setComp x c'])

/-- What goes when the component `x` goes: its functions and its parameters, but not its pins. -/
def leave (x : Nat) : List Event :=
  (g.functs.filter fun p => p.2.owner_ptr = x).map (fun p => .dropFunct p.1) ++
    (g.params.filter fun p => p.2.owner_ptr = x).map (fun p => .dropParam p.1) ++ [.dropComp x]

def exit (state : HalState) (comp_id : Int) : Int × List Event :=
  if state = .destroyed then (-EALREADY, [])
  else
    match g.findComp comp_id with
    | none => (-EINVAL, [])
    | some (x, _) => (0, g.leave x)

/-- Where `hal_add_funct_to_thread` inserts in a schedule of `m` functions. -/
def position (m : Nat) (p : Int) : Option Nat :=
  if 0 < p ∧ p ≤ m + 1 then some (p - 1).toNat
  else if p < 0 ∧ -p ≤ m + 1 then some (m + 1 + p).toNat
  else none

def add_funct (lock : UInt8) (new : Nat) (funct_name thread_name : Option CStr) (p : Int) :
    Int × List Event :=
  if lock &&& HAL_LOCK_CONFIG ≠ 0 then (-EPERM, [])
  else
    match funct_name.bind g.findFunct, thread_name.bind g.findThread with
    | some (f, fr), some t =>
        if fr.users > 0 ∧ fr.reentrant = 0 then (-EINVAL, [])
        else if fr.uses_fp ≠ 0 ∧ t.thread.uses_fp = 0 then (-EINVAL, [])
        else
          match position t.entries.length p with
          | none => (-EINVAL, [])
          | some i =>
              (0, [.schedule t.off i new { funct_ptr := f, arg := fr.arg, funct := fr.funct }])
    | _, _ => (-EINVAL, [])

def del_funct (lock : UInt8) (funct_name thread_name : Option CStr) : Int × List Event :=
  if lock &&& HAL_LOCK_CONFIG ≠ 0 then (-EPERM, [])
  else
    match funct_name.bind g.findFunct, thread_name.bind g.findThread with
    | some (f, _), some t =>
        match t.entries.find? fun e => e.2.funct_ptr = f with
        | none => (-EINVAL, [])
        | some (e, _) => (0, [.unschedule t.off e f])
    | _, _ => (-EINVAL, [])

end Registry

/-! ### Who registers -/

/-- The event registers something of the component `c`. -/
def Event.For (c : Nat) : Event → Prop
  | .addPin _ p => p.owner_ptr = c
  | .addParam _ p => p.owner_ptr = c
  | .addFunct _ f => f.owner_ptr = c
  | _ => False

namespace Registry

variable {g : Registry} {base : Addr} {lock : UInt8} {new : Nat} {comp_id : Int} {ev : Event}

theorem apply_for {c : Nat} (h : ev.For c) :
    (g.apply ev).comps = g.comps ∧ (g.apply ev).threads = g.threads := by
  cases ev <;> simp only [Event.For] at h <;> exact ⟨rfl, rfl⟩

/-- Registering changes neither the components nor the threads. -/
theorem applyAll_for {evs : List Event} (h : ∀ ev ∈ evs, ∃ c, ev.For c) :
    (g.applyAll evs).comps = g.comps ∧ (g.applyAll evs).threads = g.threads := by
  induction evs generalizing g with
  | nil => exact ⟨rfl, rfl⟩
  | cons ev evs ih =>
      obtain ⟨c, hc⟩ := h ev (by simp)
      obtain ⟨h₁, h₂⟩ := ih (g := g.apply ev) fun ev' h' => h ev' (List.mem_cons_of_mem _ h')
      obtain ⟨h₃, h₄⟩ := apply_for (g := g) hc
      exact ⟨h₁.trans h₃, h₂.trans h₄⟩

/-- The component an operation registers for. -/
def Holder (g : Registry) (comp_id : Int) (ev : Event) : Prop :=
  ∃ c comp, g.findComp comp_id = some (c, comp) ∧ ev.For c

theorem register_for {inShm : Bool} {dup : Prop} [Decidable dup] {event : Nat → Event}
    (hev : ∀ c, (event c).For c) (h : ev ∈ (g.register comp_id inShm new dup event).2) :
    g.Holder comp_id ev := by
  unfold register at h
  split at h
  · simp at h
  · split_ifs at h <;> simp at h
    exact ⟨_, _, by assumption, h ▸ hev _⟩

theorem param_new_for {name : CStr} {type : HalType} {dir : ParamDir} {data_addr : Addr}
    (h : ev ∈ (g.param_new base lock new name type dir data_addr comp_id).2) :
    g.Holder comp_id ev := by
  unfold param_new at h
  split_ifs at h
  all_goals first
    | exact absurd h List.not_mem_nil
    | refine register_for (fun c => ?_) h; rfl

theorem pin_new_for {name : CStr} {type : HalType} {data_ptr_addr : Addr}
    (h : ev ∈ (g.pin_new base lock new name type data_ptr_addr comp_id).2) :
    g.Holder comp_id ev := by
  unfold pin_new at h
  split_ifs at h
  all_goals first
    | exact absurd h List.not_mem_nil
    | refine register_for (fun c => ?_) h; rfl

theorem pin_newf_for {full : CStr} {type : HalType} {data_ptr_addr : Addr}
    (h : ev ∈ (g.pin_newf base lock new type data_ptr_addr comp_id full).2) :
    g.Holder comp_id ev := by
  unfold pin_newf at h
  split_ifs at h
  · simp at h
  · exact pin_new_for h

theorem export_funct_for {name : CStr} {funct arg : Addr} {uses_fp reentrant : Int}
    (h : ev ∈ (g.export_funct lock new name funct arg uses_fp reentrant comp_id).2) :
    g.Holder comp_id ev := by
  unfold export_funct at h
  split at h
  · exact absurd h List.not_mem_nil
  split at h
  · exact absurd h List.not_mem_nil
  rcases hf : g.findComp comp_id with _ | ⟨c, comp⟩ <;> simp only [hf] at h
  · exact absurd h List.not_mem_nil
  · split_ifs at h
    all_goals first
      | exact absurd h List.not_mem_nil
      | exact ⟨c, comp, hf, List.mem_singleton.mp h ▸ rfl⟩

end Registry

end RTS.Hal

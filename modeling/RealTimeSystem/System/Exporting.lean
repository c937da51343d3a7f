import RealTimeSystem.Hal.Room
import RealTimeSystem.System.Cascade
import RealTimeSystem.System.Pointers

/-!
# System — a function with its pin and its parameters

`hal_export_funct` lists the function before it registers the pin `.time` and the parameters
`.tmax` and `.tmax-increased`.  When the pin is refused it fails, and the function stays listed;
when a parameter is refused it does not fail.  `Exported` is what a call comes to, in terms of the
state before it: `Publishes` says that the function is listed, `PinFits` that the pin is registered,
`Gauged` which parameters are.
-/

namespace RTS.Hal

open RTS.Support RTS.Uspace

variable {σ : Type} {R : Rtapi σ} {s s' : State σ} {L L' : Lists}

/-! ### What the call needs -/

/-- A parameter with the name is listed. -/
def Segment.ParamTaken (m : Segment) (name : CStr) : Prop :=
  ∃ p, m.Listed .param p ∧ (m.param p).name = name

/-- The listed parameter with the name belongs to the component and gives the value at `off`. -/
def Segment.ParamFor (m : Segment) (name : CStr) (comp off : Nat) : Prop :=
  ∃ p, m.Listed .param p ∧ (m.param p).name = name ∧ (m.param p).owner_ptr = comp ∧
    (m.param p).data_ptr = off

section
variable (s : State σ) (name : CStr) (comp_id : Int)

/-- The function that `hal_export_funct` gets. -/
def new_funct : Nat := (s.shm.arena.alloc .funct).1

/-- `hal_export_funct` lists a function of the component `comp`: it passes its checks, gets a
structure, and no function has the name. -/
structure Publishes (comp : Nat) : Prop extends Exports s name comp_id comp where
  free : ∀ f, s.shm.Listed .funct f → (s.shm.funct f).name ≠ rt_snprintf (HAL_NAME_LEN + 1) name

/-- The pin of the function is not refused: its name is short enough and free, and behind the
function there is memory for it. -/
structure PinFits : Prop where
  short : ¬ (name ++ dotTime).length > HAL_NAME_LEN
  free : ∀ p, s.shm.Listed .pin p → (s.shm.pin p).name ≠ name ++ dotTime
  room : ¬ (s.shm.arena.alloc .funct).2.Full .pin

/-- The arena behind the function and its pin. -/
def arena_behind : Arena := ((s.shm.arena.alloc .funct).2.alloc .pin).2

/-- Each parameter is there already, or its whole name is free and there is memory for it. -/
structure ParamsFit (comp : Nat) : Prop where
  tmax : s.shm.ParamFor (name ++ dotTmax) comp (new_funct s + FUNCT_MAXTIME) ∨
    (¬ s.shm.ParamTaken (name ++ dotTmax) ∧ ¬ (arena_behind s).Full .param)
  increased :
    s.shm.ParamFor (name ++ dotTmaxIncreased) comp (new_funct s + FUNCT_MAXTIME_INCREASED) ∨
    (¬ (name ++ dotTmaxIncreased).length > HAL_NAME_LEN ∧
      ¬ s.shm.ParamTaken (name ++ dotTmaxIncreased) ∧
      (s.shm.ParamTaken (name ++ dotTmax) → ¬ (arena_behind s).Full .param) ∧
      (¬ s.shm.ParamTaken (name ++ dotTmax) → ¬ ((arena_behind s).alloc .param).2.Full .param))

end

theorem Shape.param_taken {m : Segment} (h : Shape m.arena L) {name : CStr} :
    m.ParamTaken name ↔ ∃ p ∈ (view m L).params, p.2.name = name := by
  constructor
  · rintro ⟨p, hp, e⟩
    exact ⟨(p, m.param p), mem_tab.mpr ⟨h.listed.mp hp, rfl⟩, e⟩
  · rintro ⟨p, hp, e⟩
    obtain ⟨hx, he⟩ := mem_tab.mp hp
    exact ⟨p.1, h.listed.mpr hx, he ▸ e⟩

theorem Shape.param_for {m : Segment} (h : Shape m.arena L) {name : CStr} {comp off : Nat} :
    m.ParamFor name comp off ↔ ∃ p ∈ (view m L).params,
      p.2.name = name ∧ p.2.owner_ptr = comp ∧ p.2.data_ptr = off := by
  constructor
  · rintro ⟨p, hp, e⟩
    exact ⟨(p, m.param p), mem_tab.mpr ⟨h.listed.mp hp, rfl⟩, e⟩
  · rintro ⟨p, hp, e⟩
    obtain ⟨hx, he⟩ := mem_tab.mp hp
    exact ⟨p.1, h.listed.mpr hx, he ▸ e⟩

/-! ### The operations on a component that is being loaded -/

namespace Registry

variable {g : Registry} {base : Addr} {lock : UInt8} {new c : Nat} {comp : Comp} {comp_id : Int}

theorem register_found (hf : g.findComp comp_id = some (c, comp)) (hr : comp.ready = 0)
    {taken : Prop} [Decidable taken] {event : Nat → Event} :
    g.register comp_id true new taken event =
      if new = 0 then (-ENOMEM, []) else if taken then (-EINVAL, []) else (0, [event c]) := by
  rw [register, hf]
  simp only [hr, ne_eq, not_true_eq_false, if_false]

theorem register_outside {taken : Prop} [Decidable taken] {event : Nat → Event} :
    g.register comp_id false new taken event = (-EINVAL, []) := by
  unfold register
  rcases g.findComp comp_id with _ | p <;> rfl

theorem param_new_found (hf : g.findComp comp_id = some (c, comp)) (hr : comp.ready = 0)
    (hl : ¬ lock &&& HAL_LOCK_LOAD ≠ 0) {name : CStr} (hn : ¬ name.length > HAL_NAME_LEN)
    {type : HalType} (ht : paramType type) {dir : ParamDir} (hd : dir = .ro ∨ dir = .rw)
    {data_addr : Addr} (hin : SHMCHK base data_addr = true) :
    g.param_new base lock new name type dir data_addr comp_id =
      if new = 0 then (-ENOMEM, []) else if ∃ p ∈ g.params, p.2.name = name then (-EINVAL, [])
      else (0, [.addParam new
        { data_ptr := data_addr - base, owner_ptr := c, oldname := 0, type := type, dir := dir
          name := name }]) := by
  have hd' : ¬ (dir ≠ .ro ∧ dir ≠ .rw) := fun h => hd.elim h.1 h.2
  rw [param_new, if_neg (not_not_intro ht), if_neg hd', if_neg hn, if_neg hl, hin,
    register_found hf hr, rt_snprintf_short hn]

theorem pin_newf_found (hf : g.findComp comp_id = some (c, comp)) (hr : comp.ready = 0)
    (hl : ¬ lock &&& HAL_LOCK_LOAD ≠ 0) {full : CStr} {type : HalType} (ht : paramType type)
    {data_ptr_addr : Addr} (hin : SHMCHK base data_ptr_addr = true) :
    g.pin_newf base lock new type data_ptr_addr comp_id full =
      if full.length > HAL_NAME_LEN then (-ENOMEM, []) else if new = 0 then (-ENOMEM, [])
      else if ∃ p ∈ g.pins, p.2.name = full then (-EINVAL, [])
      else (0, [.addPin new
        { data_ptr_addr := data_ptr_addr - base, owner_ptr := c, signal := 0, oldname := 0
          type := type, name := full }]) := by
  rw [pin_newf]
  by_cases hn : full.length > HAL_NAME_LEN
  · rw [if_pos hn, if_pos hn]
  rw [if_neg hn, if_neg hn, pin_new, rt_snprintf_short hn, if_neg (not_not_intro (.inl ht)),
    if_neg hn, if_neg hl, hin, register_found hf hr, rt_snprintf_short hn]

end Registry

/-- A store into memory registers nothing. -/
theorem Moved.setData {evs : List Event} (h : Moved s L evs s' L') (p : Addr) (v : Int) :
    Moved s L evs (s'.setData p v) L' :=
  { h with inv := { h.inv with good := ⟨h.inv.good.shape, h.inv.good.sound, h.inv.good.plain⟩ } }

/-! ### One parameter -/

/-- What a step adds: the event when it `fits`, else none. -/
def Adds (fits : Prop) (ev : Event) (evs : List Event) : Prop :=
  (fits ∧ evs = [ev]) ∨ (¬ fits ∧ evs = [])

/-- **A parameter of a component that is being loaded.** -/
theorem hal_param_new_found (h : Inv s L) {comp_id : Int} {c : Nat} {comp : Comp}
    (hf : (view s.shm L).findComp comp_id = some (c, comp)) (hr : comp.ready = 0)
    (hl : ¬ s.shm.lock &&& HAL_LOCK_LOAD ≠ 0) {name : CStr} (hn : ¬ name.length > HAL_NAME_LEN)
    {type : HalType} (ht : Registry.paramType type) {dir : ParamDir} (hd : dir = .ro ∨ dir = .rw)
    {data_addr : Addr} (hin : SHMCHK s.hal_shmem_base data_addr = true) :
    Returns (hal_param_new name type dir data_addr comp_id) s fun r s' => ∃ evs L',
      Moved s L evs s' L' ∧ (r = 0 ↔ evs ≠ []) ∧
      Adds (¬ s.shm.ParamTaken name ∧ ¬ s.shm.arena.Full .param)
        (.addParam (s.shm.arena.alloc .param).1
          { data_ptr := data_addr - s.hal_shmem_base, owner_ptr := c, oldname := 0, type := type
            dir := dir, name := name }) evs ∧
      (evs ≠ [] → Arena.Beside .param (s.shm.arena.alloc .param).2 s'.shm.arena) ∧
      (evs = [] → (s'.shm.arena.Full .param ↔ s.shm.arena.Full .param)) := by
  have hE : -EINVAL ≠ 0 := by decide
  have hM : -ENOMEM ≠ 0 := by decide
  refine (hal_param_new_refines h name type dir data_addr comp_id).with_eq.mono
    fun r s' ⟨hrun, hr', L', hm, _⟩ => ?_
  have hroom := (hal_param_new_room h name type dir data_addr comp_id).of_ok hrun
  rw [Registry.param_new_found hf hr hl hn ht hd hin] at hr' hm
  have htaken : s.shm.ParamTaken name ↔ ∃ p ∈ (view s.shm L).params, p.2.name = name :=
    h.good.shape.param_taken
  by_cases hfull : s.shm.arena.Full .param
  · rw [if_pos (by rw [Shape.alloc_full hfull])] at hr' hm
    have hr0 : r ≠ 0 := hr' ▸ hM
    refine ⟨[], L', hm, iff_of_false hr0 (not_not_intro rfl), .inr ⟨fun h => h.2 hfull, rfl⟩,
      fun h => absurd rfl h, fun _ => ?_⟩
    exact (hroom.resolve_left fun h => hr0 h.1).2
  rw [if_neg (h.good.shape.alloc (by decide) (by decide) hfull).1] at hr' hm
  by_cases hdup : ∃ p ∈ (view s.shm L).params, p.2.name = name
  · rw [if_pos hdup] at hr' hm
    have hr0 : r ≠ 0 := hr' ▸ hE
    refine ⟨[], L', hm, iff_of_false hr0 (not_not_intro rfl),
      .inr ⟨fun h => h.1 (htaken.mpr hdup), rfl⟩, fun h => absurd rfl h, fun _ => ?_⟩
    exact (hroom.resolve_left fun h => hr0 h.1).2
  · rw [if_neg hdup] at hr' hm
    refine ⟨_, L', hm, iff_of_true hr' (List.cons_ne_nil _ _),
      .inl ⟨⟨fun h => hdup (htaken.mp h), hfull⟩, rfl⟩, fun _ => ?_, fun h => nomatch h⟩
    exact (hroom.resolve_right fun h => h.1 hr').2

/-! ### The pin and the parameters of a function -/

/-- A parameter that gives the value at `off`. -/
def gauge (x : Nat) (name : CStr) (comp off : Nat) (type : HalType) (dir : ParamDir) : Event :=
  .addParam x
    { data_ptr := off, owner_ptr := comp, oldname := 0, type := type, dir := dir, name := name }

/-- The name under which `.tmax-increased` is asked for: 47 bytes of it. -/
def increased_name (name : CStr) : CStr :=
  rt_snprintf (HAL_NAME_LEN + 1) (name ++ dotTmaxIncreased)

/-- What the two parameters of the function `new` add, in the segment `m` and with the memory of
`a`. -/
structure Gauged (m : Segment) (a : Arena) (name : CStr) (comp new : Nat) (evs₁ evs₂ : List Event) :
    Prop where
  tmax : ∃ x, Adds (¬ m.ParamTaken (name ++ dotTmax) ∧ ¬ a.Full .param)
    (gauge x (name ++ dotTmax) comp (new + FUNCT_MAXTIME) .s32 .rw) evs₁
  increased : ∃ x, Adds (¬ (m.ParamTaken (increased_name name) ∨
        evs₁ ≠ [] ∧ name ++ dotTmax = increased_name name) ∧
      (evs₁ = [] → ¬ a.Full .param) ∧ (evs₁ ≠ [] → ¬ (a.alloc .param).2.Full .param))
    (gauge x (increased_name name) comp (new + FUNCT_MAXTIME_INCREASED) .bit .ro) evs₂

/-- The parameters after a step that may have added one. -/
theorem Adds.params {fits : Prop} {x : Nat} {name : CStr} {comp off : Nat} {type : HalType}
    {dir : ParamDir} {evs : List Event}
    (ha : Adds fits (gauge x name comp off type dir) evs) (g : Registry) {p : Nat × Param} :
    p ∈ (g.applyAll evs).params ↔ p ∈ g.params ∨ evs ≠ [] ∧ p = (x,
      { data_ptr := off, owner_ptr := comp, oldname := 0, type := type, dir := dir
        name := name }) := by
  rcases ha with ⟨-, rfl⟩ | ⟨-, rfl⟩
  · simp only [gauge, Registry.applyAll_cons, Registry.applyAll_nil, Registry.apply]
    rw [mem_enter, or_comm]
    exact or_congr Iff.rfl ⟨fun e => ⟨List.cons_ne_nil _ _, e⟩, And.right⟩
  · exact ⟨.inl, fun h => h.elim id fun h => absurd rfl h.1⟩

/-- The parameters leave the other tables. -/
theorem Gauged.keeps {α : Type} {m : Segment} {a : Arena} {name : CStr} {c new : Nat}
    {evs₁ evs₂ : List Event} (hg : Gauged m a name c new evs₁ evs₂) (t : Registry → α)
    (ht : ∀ g y q, t (g.apply (.addParam y q)) = t g) (g : Registry) :
    t ((g.applyAll evs₁).applyAll evs₂) = t g := by
  obtain ⟨⟨x₁, ha₁⟩, x₂, ha₂⟩ := hg
  rcases ha₁ with ⟨-, rfl⟩ | ⟨-, rfl⟩ <;> rcases ha₂ with ⟨-, rfl⟩ | ⟨-, rfl⟩
  all_goals
    simp only [gauge, Registry.applyAll_cons, Registry.applyAll_nil, ht]

/-- A parameter that was added, or was there before. -/
theorem Adds.taken {fits : Prop} {x : Nat} {name n : CStr} {comp off : Nat} {type : HalType}
    {dir : ParamDir} {evs : List Event} {m m' : Segment}
    (ha : Adds fits (gauge x name comp off type dir) evs) (h : Shape m.arena L)
    (h' : Shape m'.arena L') (hv : view m' L' = (view m L).applyAll evs) :
    m'.ParamTaken n ↔ m.ParamTaken n ∨ evs ≠ [] ∧ name = n := by
  rw [h.param_taken, h'.param_taken, hv]
  simp only [ha.params]
  constructor
  · rintro ⟨p, hp | ⟨hevs, rfl⟩, e⟩
    · exact .inl ⟨p, hp, e⟩
    · exact .inr ⟨hevs, e⟩
  · rintro (⟨p, hp, e⟩ | ⟨hevs, e⟩)
    · exact ⟨p, .inl hp, e⟩
    · exact ⟨_, .inr ⟨hevs, rfl⟩, e⟩

theorem hal_pin_newf_room (h : Inv s L) (type : HalType) (data_ptr_addr : Addr) (comp_id : Int)
    (full : CStr) :
    Wp (hal_pin_newf type data_ptr_addr comp_id full) s (fun r s' =>
      r = 0 → Arena.Beside .pin (s.shm.arena.alloc .pin).2 s'.shm.arena) fun _ _ => True := by
  unfold hal_pin_newf hal_pin_newfv
  refine .ite (fun _ => fun e => absurd e (by decide)) fun _ => ?_
  exact (hal_pin_new_room h _ _ _ _).mono (fun r _ hs hr => (hs.resolve_right fun h => h.1 hr).2)
    fun _ _ => id

/-- **A pin of a component that is being loaded.** -/
theorem hal_pin_newf_found (h : Inv s L) {comp_id : Int} {c : Nat} {comp : Comp}
    (hf : (view s.shm L).findComp comp_id = some (c, comp)) (hr : comp.ready = 0)
    (hl : ¬ s.shm.lock &&& HAL_LOCK_LOAD ≠ 0) (full : CStr) {type : HalType}
    (ht : Registry.paramType type) {data_ptr_addr : Addr}
    (hin : SHMCHK s.hal_shmem_base data_ptr_addr = true) :
    Returns (hal_pin_newf type data_ptr_addr comp_id full) s fun r s' => ∃ evs L',
      Moved s L evs s' L' ∧ (r = 0 ↔ evs ≠ []) ∧
      Adds (¬ full.length > HAL_NAME_LEN ∧ (∀ p ∈ (view s.shm L).pins, p.2.name ≠ full) ∧
          ¬ s.shm.arena.Full .pin)
        (.addPin (s.shm.arena.alloc .pin).1
          { data_ptr_addr := data_ptr_addr - s.hal_shmem_base, owner_ptr := c, signal := 0
            oldname := 0, type := type, name := full }) evs ∧
      (r = 0 → Arena.Beside .pin (s.shm.arena.alloc .pin).2 s'.shm.arena ∧
        s'.shm.cell (data_ptr_addr - s.hal_shmem_base) ≠ 0) := by
  have hE : -EINVAL ≠ 0 := by decide
  have hM : -ENOMEM ≠ 0 := by decide
  refine (hal_pin_newf_refines h _ (.inl hin) _ _).with_eq.mono
    fun r s' ⟨hrun, ⟨hr', L', hm, _⟩, hcell⟩ => ?_
  have hroom := (hal_pin_newf_room h _ _ _ _).of_ok hrun
  rw [Registry.pin_newf_found hf hr hl ht hin] at hr' hm
  -- refused: nothing is added
  have refused : ∀ e : Int, e ≠ 0 → r = e → Moved s L [] s' L' →
      ¬ (¬ full.length > HAL_NAME_LEN ∧ (∀ p ∈ (view s.shm L).pins, p.2.name ≠ full) ∧
        ¬ s.shm.arena.Full .pin) → ∃ evs L', Moved s L evs s' L' ∧ (r = 0 ↔ evs ≠ []) ∧
      Adds _ (.addPin (s.shm.arena.alloc .pin).1
          { data_ptr_addr := data_ptr_addr - s.hal_shmem_base, owner_ptr := c, signal := 0
            oldname := 0, type := type, name := full }) evs ∧
      (r = 0 → Arena.Beside .pin (s.shm.arena.alloc .pin).2 s'.shm.arena ∧
        s'.shm.cell (data_ptr_addr - s.hal_shmem_base) ≠ 0) := fun e he hre hm hno =>
    ⟨[], L', hm, iff_of_false (hre ▸ he) (not_not_intro rfl), .inr ⟨hno, rfl⟩,
      fun h0 => absurd (hre ▸ h0) he⟩
  by_cases hshort : full.length > HAL_NAME_LEN
  · rw [if_pos hshort] at hr' hm
    exact refused _ hM hr' hm fun h => h.1 hshort
  rw [if_neg hshort] at hr' hm
  by_cases hfull : s.shm.arena.Full .pin
  · rw [if_pos (by rw [Shape.alloc_full hfull])] at hr' hm
    exact refused _ hM hr' hm fun h => h.2.2 hfull
  rw [if_neg (h.good.shape.alloc (by decide) (by decide) hfull).1] at hr' hm
  by_cases hdup : ∃ p ∈ (view s.shm L).pins, p.2.name = full
  · rw [if_pos hdup] at hr' hm
    exact refused _ hE hr' hm fun h => hdup.elim fun p hp => h.2.1 p hp.1 hp.2
  · rw [if_neg hdup] at hr' hm
    exact ⟨_, L', hm, iff_of_true hr' (List.cons_ne_nil _ _),
      .inl ⟨⟨hshort, fun p hp e => hdup ⟨p, hp, e⟩, hfull⟩, rfl⟩, fun h0 => ⟨hroom h0, hcell h0⟩⟩

/-- **The end of `hal_export_funct`.**  The pin is refused, or it is registered and the parameters
are tried. -/
theorem export_funct_pins_found (h : Inv s L) {comp_id : Int} {c : Nat} {comp : Comp}
    (hf : (view s.shm L).findComp comp_id = some (c, comp)) (hr : comp.ready = 0)
    (hl : ¬ s.shm.lock &&& HAL_LOCK_LOAD ≠ 0) (name : CStr) {new : Nat} (hnew : new ∈ L.act .funct) :
    Returns (export_funct_pins name new comp_id) s fun r s' =>
      let fits := ¬ (name ++ dotTime).length > HAL_NAME_LEN ∧
        (∀ p ∈ (view s.shm L).pins, p.2.name ≠ name ++ dotTime) ∧ ¬ s.shm.arena.Full .pin
      (¬ fits ∧ r = -EINVAL ∧ ∃ L', Moved s L [] s' L') ∨
      (fits ∧ r = 0 ∧ ∃ x p evs₁ evs₂ L', Moved s L (.addPin x p :: (evs₁ ++ evs₂)) s' L' ∧
        p.name = name ++ dotTime ∧ p.owner_ptr = c ∧ p.data_ptr_addr = new + FUNCT_RUNTIME ∧
        Gauged s.shm (s.shm.arena.alloc .pin).2 name c new evs₁ evs₂) := by
  have hin : ∀ {off : Nat}, off < Kind.funct.size →
      SHMCHK s.hal_shmem_base (s.hal_shmem_base + (new + off)) = true :=
    fun hoff => h.good.shape.shmchk (by decide) hnew hoff _
  unfold export_funct_pins
  simp only [returns_bind, returns_get]
  refine (hal_pin_newf_found h hf hr hl (name ++ dotTime) (by decide) (hin (by decide))).mono
    fun r₁ s₁ hpost => ?_
  obtain ⟨evs, L₁, h₁, hr₁, ha, hpin⟩ := hpost
  rcases ha with ⟨hfits, rfl⟩ | ⟨hno, rfl⟩
  swap
  · rw [if_pos fun e => hr₁.mp e rfl]
    exact .inl ⟨hno, rfl, L₁, h₁⟩
  have hr0 : r₁ = 0 := hr₁.mpr (List.cons_ne_nil _ _)
  obtain ⟨hb, hcell⟩ := hpin hr0
  have hshort := hfits.1
  rw [if_neg (not_not_intro hr0)]
  have hcell' : s₁.shm.cell (new + FUNCT_RUNTIME) ≠ 0 := by rwa [Nat.add_sub_cancel_left] at hcell
  simp only [returns_bind]
  rw [returns_storeThrough hcell', returns_setData]
  -- the stores leave the registry, the arena and the lock
  set s₂ := (s₁.setData (s₁.shm.cell (new + FUNCT_RUNTIME)) 0).setData
    (s.hal_shmem_base + (new + FUNCT_MAXTIME)) 0 with hs₂
  have h₂ : Moved s L [.addPin (s.shm.arena.alloc .pin).1 _] s₂ L₁ :=
    (h₁.setData _ _).setData _ _
  have hf₂ : (view s₂.shm L₁).findComp comp_id = some (c, comp) := by rw [h₂.events]; exact hf
  have hlen : (name ++ dotTmax).length = (name ++ dotTime).length := by
    rw [List.length_append, List.length_append]; rfl
  have hshort₁ : ¬ (name ++ dotTmax).length > HAL_NAME_LEN := by rw [hlen]; exact hshort
  rw [rt_snprintf_short hshort₁]
  unfold hal_param_s32_new hal_param_bit_new
  have hparams₂ : (view s₂.shm L₁).params = (view s.shm L).params := by rw [h₂.events]; rfl
  have htaken₂ : ∀ n, s₂.shm.ParamTaken n ↔ s.shm.ParamTaken n := fun n => by
    rw [h₂.inv.good.shape.param_taken, h.good.shape.param_taken, hparams₂]
  have hb₂ : Arena.Beside .pin (s.shm.arena.alloc .pin).2 s₂.shm.arena := hb
  refine (hal_param_new_found h₂.inv hf₂ hr (h₂.lock.symm ▸ hl) hshort₁ (by decide) (.inr rfl)
    (h₂.base.symm ▸ hin (by decide))).mono fun _ s₃ hpost => ?_
  obtain ⟨evs₁, L₃, h₃, _, ha₁, hbe₁, hfu₁⟩ := hpost
  rw [htaken₂, hb₂.full, h₂.base, Nat.add_sub_cancel_left] at ha₁
  have hfull₃ : (evs₁ = [] → (s₃.shm.arena.Full .param ↔ (s.shm.arena.alloc .pin).2.Full .param)) ∧
      (evs₁ ≠ [] → (s₃.shm.arena.Full .param ↔
        ((s.shm.arena.alloc .pin).2.alloc .param).2.Full .param)) :=
    ⟨fun e => (hfu₁ e).trans (hb₂.full _), fun e => ((hbe₁ e).full _).trans
      ((hb₂.alloc (by decide)).2.full _)⟩
  have htaken₃ : ∀ n, s₃.shm.ParamTaken n ↔
      s.shm.ParamTaken n ∨ evs₁ ≠ [] ∧ name ++ dotTmax = n := fun n => by
    rw [Adds.taken ha₁ h₂.inv.good.shape h₃.inv.good.shape h₃.events, htaken₂]
  have hcomps₃ : (view s₃.shm L₃).comps = (view s.shm L).comps := by
    have hcomps₂ : (view s₂.shm L₁).comps = (view s.shm L).comps := by rw [h₂.events]; rfl
    rw [h₃.events]
    rcases ha₁ with ⟨-, rfl⟩ | ⟨-, rfl⟩ <;> exact hcomps₂
  have hf₃ : (view s₃.shm L₃).findComp comp_id = some (c, comp) := by
    rw [Registry.findComp, hcomps₃]
    exact hf
  rw [returns_setData]
  set s₄ := s₃.setData (s.hal_shmem_base + (new + FUNCT_MAXTIME_INCREASED)) 0 with hs₄
  have h₄ : Moved s₂ L₁ evs₁ s₄ L₃ := h₃.setData _ _
  have hlong : ¬ (increased_name name).length > HAL_NAME_LEN := by
    rw [increased_name, rt_snprintf, List.length_take]
    omega
  refine (hal_param_new_found h₄.inv hf₃ hr (h₄.lock.symm ▸ h₂.lock.symm ▸ hl) hlong (by decide)
    (.inl rfl) (h₄.base.symm ▸ h₂.base.symm ▸ hin (by decide))).mono fun _ s₅ hpost => ?_
  obtain ⟨evs₂, L₅, h₅, _, ha₂, _, _⟩ := hpost
  rw [show s₄.shm.ParamTaken _ ↔ _ from htaken₃ _, h₄.base, h₂.base, Nat.add_sub_cancel_left] at ha₂
  have hroom₄ : ¬ s₄.shm.arena.Full .param ↔
      (evs₁ = [] → ¬ (s.shm.arena.alloc .pin).2.Full .param) ∧
        (evs₁ ≠ [] → ¬ ((s.shm.arena.alloc .pin).2.alloc .param).2.Full .param) := by
    show ¬ s₃.shm.arena.Full .param ↔ _
    by_cases he : evs₁ = []
    · rw [hfull₃.1 he]
      exact ⟨fun h => ⟨fun _ => h, fun h' => absurd he h'⟩, fun h => h.1 he⟩
    · rw [hfull₃.2 he]
      exact ⟨fun h => ⟨fun h' => absurd h' he, fun _ => h⟩, fun h => h.2 he⟩
  rw [hroom₄] at ha₂
  have hgauged : Gauged s.shm (s.shm.arena.alloc .pin).2 name c new evs₁ evs₂ :=
    ⟨⟨_, ha₁⟩, ⟨_, ha₂⟩⟩
  exact .inr ⟨hfits, rfl, _, _, evs₁, evs₂, L₅,
    (h₂.trans h₄).trans h₅, rfl, rfl, Nat.add_sub_cancel_left _ _, hgauged⟩

/-! ### The whole -/

/-- What `hal_export_funct` lists, or its refusal. -/
theorem export_funct_cases (h : Inv s L) (name : CStr) (funct arg : Addr)
    (uses_fp reentrant comp_id : Int) :
    ((∀ c, ¬ Publishes s name comp_id c) ∧
        ((view s.shm L).export_funct s.shm.lock (new_funct s) name funct arg uses_fp reentrant
          comp_id).1 ≠ 0 ∧
        ((view s.shm L).export_funct s.shm.lock (new_funct s) name funct arg uses_fp reentrant
          comp_id).2 = []) ∨
      ∃ c, Publishes s name comp_id c ∧
        (view s.shm L).findComp comp_id = some (c, s.shm.comp c) ∧
        (view s.shm L).export_funct s.shm.lock (new_funct s) name funct arg uses_fp reentrant
          comp_id = (0, [.addFunct (new_funct s)
            { uses_fp := uses_fp, owner_ptr := c, reentrant := reentrant, users := 0, arg := arg
              funct := funct, name := rt_snprintf (HAL_NAME_LEN + 1) name }]) := by
  have hE : -EINVAL ≠ 0 := by decide
  have hP : -EPERM ≠ 0 := by decide
  have hM : -ENOMEM ≠ 0 := by decide
  unfold Registry.export_funct
  by_cases hn : name.length > HAL_NAME_LEN
  · rw [if_pos hn]
    exact .inl ⟨fun c hp => hp.short hn, hE, rfl⟩
  by_cases hl : s.shm.lock &&& HAL_LOCK_LOAD ≠ 0
  · rw [if_neg hn, if_pos hl]
    exact .inl ⟨fun c hp => hl hp.unlocked, hP, rfl⟩
  rw [if_neg hn, if_neg hl]
  rcases find_comp_cases h.good.shape comp_id with ⟨hf, hv⟩ | ⟨c, -, hc0, hf, hv, -⟩
  · rw [hv]
    exact .inl ⟨fun c hp => hp.found.2 (Option.some.inj (hp.found.1.symm.trans hf)), hE, rfl⟩
  have hcomp : ∀ c', Publishes s name comp_id c' → c' = c := fun c' hp =>
    Option.some.inj (hp.found.1.symm.trans hf)
  rw [hv]
  by_cases ht : (s.shm.comp c).type = .user
  · simp only [if_pos ht]
    exact .inl ⟨fun c' hp => hp.kernel (hcomp c' hp ▸ ht), hE, trivial⟩
  by_cases hr : (s.shm.comp c).ready ≠ 0
  · simp only [if_neg ht, if_pos hr]
    exact .inl ⟨fun c' hp => hr (hcomp c' hp ▸ hp.unready), hE, trivial⟩
  by_cases hfull : s.shm.arena.Full .funct
  · have h0 : new_funct s = 0 := congrArg Prod.fst (Shape.alloc_full hfull)
    simp only [if_neg ht, if_neg hr, if_pos h0]
    exact .inl ⟨fun c' hp => hp.room hfull, hM, trivial⟩
  have h0 : new_funct s ≠ 0 := (h.good.shape.alloc (by decide) (by decide) hfull).1
  by_cases hdup : ∃ p ∈ (view s.shm L).functs, p.2.name = rt_snprintf (HAL_NAME_LEN + 1) name
  · simp only [if_neg ht, if_neg hr, if_neg h0, if_pos hdup]
    obtain ⟨p, hp, e⟩ := hdup
    obtain ⟨hx, he⟩ := mem_tab.mp hp
    exact .inl ⟨fun c' hp => hp.free p.1 (h.good.shape.listed.mpr hx) (he ▸ e), hE, trivial⟩
  · simp only [if_neg ht, if_neg hr, if_neg h0, if_neg hdup]
    refine .inr ⟨c, ⟨⟨hn, not_not.mp hl, ⟨hf, hc0⟩, ht, not_not.mp hr, hfull⟩, fun f hf e => ?_⟩,
      rfl, rfl⟩
    exact hdup ⟨(f, s.shm.funct f), mem_tab.mpr ⟨h.good.shape.listed.mp hf, rfl⟩, e⟩

section
variable (s L) (name : CStr)

/-- The outcomes of the part under the mutex: refused, or the function is listed. -/
inductive Made (funct arg : Addr) (uses_fp reentrant comp_id : Int) :
    Except Int Nat → State σ → Prop
  | refused {e : Int} {s' : State σ} {L' : Lists} : (∀ c, ¬ Publishes s name comp_id c) → e ≠ 0 →
      (view s.shm L).export_funct s.shm.lock (new_funct s) name funct arg uses_fp reentrant
        comp_id = (e, []) →
      Moved s L [] s' L' → Still s s' → Made funct arg uses_fp reentrant comp_id (.error e) s'
  | listed {c : Nat} {f : Funct} {s' : State σ} {L' : Lists} : Publishes s name comp_id c →
      (view s.shm L).findComp comp_id = some (c, s.shm.comp c) →
      f.name = rt_snprintf (HAL_NAME_LEN + 1) name → f.owner_ptr = c →
      (view s.shm L).export_funct s.shm.lock (new_funct s) name funct arg uses_fp reentrant
        comp_id = (0, [.addFunct (new_funct s) f]) →
      Moved s L [.addFunct (new_funct s) f] s' L' → Still s s' →
      Arena.Beside .funct (s.shm.arena.alloc .funct).2 s'.shm.arena →
      Made funct arg uses_fp reentrant comp_id (.ok (new_funct s)) s'

/-- The outcomes of `hal_export_funct`: refused, left without a pin, or done. -/
inductive Exported (comp_id : Int) : Int → State σ → Prop
  | refused {r : Int} {s' : State σ} {L' : Lists} : (∀ c, ¬ Publishes s name comp_id c) → r ≠ 0 →
      Moved s L [] s' L' → Exported comp_id r s'
  | unpinned {r : Int} {s' : State σ} {L' : Lists} {c : Nat} {f : Funct} :
      Publishes s name comp_id c → ¬ PinFits s name → r ≠ 0 →
      Moved s L [.addFunct (new_funct s) f] s' L' → Exported comp_id r s'
  | done {s' : State σ} {L' : Lists} {c x : Nat} {f : Funct} {p : Pin} {evs₁ evs₂ : List Event} :
      Publishes s name comp_id c → PinFits s name →
      (view s.shm L).findComp comp_id = some (c, s.shm.comp c) →
      f.name = name → f.owner_ptr = c → p.name = name ++ dotTime → p.owner_ptr = c →
      p.data_ptr_addr = new_funct s + FUNCT_RUNTIME →
      Gauged s.shm (arena_behind s) name c (new_funct s) evs₁ evs₂ →
      Moved s L (.addFunct (new_funct s) f :: .addPin x p :: (evs₁ ++ evs₂)) s' L' →
      Exported comp_id 0 s'

end

/-- **The part under the mutex.** -/
theorem export_funct_new_made (h : Inv s L) {name : CStr} (hn : ¬ name.length > HAL_NAME_LEN)
    (hl : ¬ s.shm.lock &&& HAL_LOCK_LOAD ≠ 0) (funct arg : Addr) (uses_fp reentrant comp_id : Int) :
    Returns (export_funct_new name funct arg uses_fp reentrant comp_id) s
      (Made s L name funct arg uses_fp reentrant comp_id) := by
  refine (export_funct_new_refines h hn hl funct arg uses_fp reentrant comp_id).with_eq.mono
    fun made s₁ ⟨hrun, ⟨hcode, L₁, hm, hs⟩, herr, hok⟩ => ?_
  have hroom := (export_funct_new_room h name funct arg uses_fp reentrant comp_id).of_ok hrun
  rw [show (s.shm.arena.alloc .funct).1 = new_funct s from rfl] at hcode hm
  rcases export_funct_cases h name funct arg uses_fp reentrant comp_id with
    ⟨hnone, hr, hevs⟩ | ⟨c, hpub, hfound, hspec⟩
  · rw [hevs] at hm
    cases made with
    | error e => exact .refused hnone (herr e rfl) (Prod.ext hcode.symm hevs) hm hs
    | ok new => exact absurd hcode.symm hr
  · rw [hspec] at hcode hm
    cases made with
    | error e => exact absurd hcode (herr e rfl)
    | ok new =>
        obtain rfl : new = new_funct s := hok new rfl
        exact .listed hpub hfound rfl rfl hspec hm hs (hroom _ rfl)

/-- The pin of a function that was just listed. -/
theorem pin_fits_behind {s₁ : State σ} {L₁ : Lists} (name : CStr) (h : Inv s L)
    (hpins : (view s₁.shm L₁).pins = (view s.shm L).pins)
    (hb : Arena.Beside .funct (s.shm.arena.alloc .funct).2 s₁.shm.arena) :
    (¬ (name ++ dotTime).length > HAL_NAME_LEN ∧
      (∀ p ∈ (view s₁.shm L₁).pins, p.2.name ≠ name ++ dotTime) ∧ ¬ s₁.shm.arena.Full .pin) ↔
      PinFits s name := by
  rw [hpins, hb.full]
  constructor
  · rintro ⟨h₁, h₂, h₃⟩
    exact ⟨h₁, fun p hp => h₂ (p, s.shm.pin p) (mem_tab.mpr ⟨h.good.shape.listed.mp hp, rfl⟩), h₃⟩
  · rintro ⟨h₁, h₂, h₃⟩
    refine ⟨h₁, fun p hp => ?_, h₃⟩
    obtain ⟨hx, he⟩ := mem_tab.mp hp
    rw [he]
    exact h₂ p.1 (h.good.shape.listed.mpr hx)

/-- **`hal_export_funct`.** -/
theorem hal_export_funct_exported (h : Inv s L) (name : CStr) (funct arg : Addr)
    (uses_fp reentrant comp_id : Int) :
    Returns (hal_export_funct name funct arg uses_fp reentrant comp_id) s
      (Exported s L name comp_id) := by
  have hE : -EINVAL ≠ 0 := by decide
  have hP : -EPERM ≠ 0 := by decide
  unfold hal_export_funct
  simp only [returns_bind, returns_get]
  refine .ite (fun h₀ => absurd h₀ h.attached) fun _ => ?_
  refine .ite (fun hn => .refused (fun c hp => hp.short hn) hE (.refl h)) fun hn => ?_
  refine .ite (fun hl => .refused (fun c hp => hl hp.unlocked) hP (.refl h)) fun hl => ?_
  rw [returns_bind]
  refine (export_funct_new_made h hn hl funct arg uses_fp reentrant comp_id).mono
    fun made s₁ hmade => ?_
  cases hmade with
  | refused hnone he _ hm _ => exact .refused hnone he hm
  | @listed c f _ L₁ hpub hfound hname howner _ hm _ hb =>
      have hfound₁ : (view s₁.shm L₁).findComp comp_id = some (c, s.shm.comp c) := by
        rw [hm.events]
        exact hfound
      have hpins : (view s₁.shm L₁).pins = (view s.shm L).pins := by rw [hm.events]; rfl
      have hparams : (view s₁.shm L₁).params = (view s.shm L).params := by rw [hm.events]; rfl
      have hfits := pin_fits_behind name h hpins hb
      refine (export_funct_pins_found hm.inv hfound₁ hpub.unready (hm.lock.symm ▸ hl) name
        hm.added_funct).mono fun r s₂ hs₂ => ?_
      rcases hs₂ with ⟨hno, rfl, L₂, h₂⟩ | ⟨hyes, rfl, x, p, evs₁, evs₂, L₂, h₂, hp₁, hp₂, hp₃, hg⟩
      · exact .unpinned hpub (fun hp => hno (hfits.mpr hp)) hE (hm.trans h₂)
      · refine .done hpub (hfits.mp hyes) hfound (hname.trans (rt_snprintf_short hn)) howner hp₁ hp₂
          hp₃ ?_ (hm.trans h₂)
        -- the memory and the parameters are those of the state before
        have hb₂ : Arena.Beside .funct (arena_behind s) (s₁.shm.arena.alloc .pin).2 :=
          (hb.alloc (by decide)).2
        have htaken : ∀ n, s₁.shm.ParamTaken n ↔ s.shm.ParamTaken n := fun n => by
          rw [hm.inv.good.shape.param_taken, h.good.shape.param_taken, hparams]
        obtain ⟨⟨x₁, ha₁⟩, x₂, ha₂⟩ := hg
        rw [htaken, hb₂.full] at ha₁
        rw [htaken, hb₂.full, (hb₂.alloc (by decide)).2.full] at ha₂
        exact ⟨⟨x₁, ha₁⟩, x₂, ha₂⟩

/-! ### What a failure leaves -/

/-- Two segments have the same functions, pins and parameters on their lists. -/
def SameRegistered (m m' : Segment) : Prop :=
  ∃ g g', m.Holds g ∧ m'.Holds g' ∧ g'.functs = g.functs ∧ g'.pins = g.pins ∧ g'.params = g.params

theorem SameRegistered.listed {m m' : Segment} (h : SameRegistered m m') {f : Nat}
    (hf : m'.Listed .funct f) : m.Listed .funct f := by
  obtain ⟨g, g', hg, hg', e, -, -⟩ := h
  obtain ⟨xs, hxs, hf⟩ := hf
  rw [hxs.unique hg'.functs.1, e] at hf
  exact ⟨_, hg.functs.1, hf⟩

/-- **When a failure leaves nothing behind.**  It does so unless the function is listed and its pin
is refused. -/
theorem hal_export_funct_atomic (h : Reachable R s) (name : CStr) (funct arg : Addr)
    (uses_fp reentrant comp_id : Int) :
    (∀ r s', hal_export_funct name funct arg uses_fp reentrant comp_id s = .ok r s' → r ≠ 0 →
        SameRegistered s.shm s'.shm) ↔
      ∀ c, Publishes s name comp_id c → PinFits s name := by
  obtain ⟨L, hinv⟩ := h.inv
  have hexp := hal_export_funct_exported hinv name funct arg uses_fp reentrant comp_id
  constructor
  · intro hsame c hpub
    obtain ⟨r, s', hrun, he⟩ := hexp.exists_ok
    cases he with
    | refused hno _ _ => exact absurd hpub (hno c)
    | done _ hfits _ _ _ _ _ _ _ _ => exact hfits
    | unpinned hpub _ hr hm =>
        -- the new function was on no list
        have hlisted := (hsame r s' hrun hr).listed (hm.inv.good.shape.listed.mpr hm.added_funct)
        have hfresh : new_funct s ∉ L.act .funct :=
          (hinv.good.shape.alloc (by decide) (by decide) hpub.room).2.grab_fresh (by decide)
        exact absurd (hinv.good.shape.listed.mp hlisted) hfresh
  · intro hfits r s' hrun hr
    have he := hexp.of_ok hrun
    cases he with
    | refused _ _ hm =>
        refine ⟨view s.shm L, _, hinv.good.shape.holds, hm.inv.good.shape.holds, ?_⟩
        rw [hm.events]
        exact ⟨rfl, rfl, rfl⟩
    | unpinned hpub hno _ _ => exact absurd (hfits _ hpub) hno
    | done => exact absurd rfl hr

/-- A name that is taken. -/
theorem hal_export_funct_atomic_sample :
    result (hal_export_funct (lit ['f']) 8 16 0 1 2) scheduled = some (-EINVAL) ∧
      ∀ r s', hal_export_funct (lit ['f']) 8 16 0 1 2 scheduled = .ok r s' → r ≠ 0 →
        SameRegistered scheduled.shm s'.shm := by
  refine ⟨by decide +kernel, ?_⟩
  refine (hal_export_funct_atomic scheduled_reachable (lit ['f']) 8 16 0 1 2).mpr fun c hp => ?_
  have hlisted : scheduled.shm.Listed .funct (scheduled.shm.arena.pool .funct).list_ptr :=
    (Segment.listed_one (by decide +kernel) (by decide +kernel)).mpr rfl
  exact absurd (by decide +kernel) (hp.free _ hlisted)

/-- A component that is being loaded. -/
def loading : State Machine := played (rtapi serving) [.hal_init (some (lit ['c']))] started

theorem loading_reachable : Reachable (rtapi serving) loading :=
  Playable.reachable ⟨trivial, trivial, by decide +kernel, trivial⟩

/-- A name of 43 bytes, one too many for `.time`. -/
def unpinnedName : CStr := List.replicate 43 102

/-- The call fails, and the function is on the list. -/
theorem unpinned_listed : Reachable (rtapi serving) loading ∧
    ∃ s', hal_export_funct unpinnedName 8 16 0 1 2 loading = .ok (-EINVAL) s' ∧
      ¬ SameRegistered loading.shm s'.shm ∧
      s'.shm.halpr_find_funct_by_name unpinnedName ≠ some 0 := by
  have hrun : result (hal_export_funct unpinnedName 8 16 0 1 2) loading = some (-EINVAL) := by
    decide +kernel
  refine ⟨loading_reachable, _, result_eq hrun, fun h => ?_, by decide +kernel⟩
  have hlisted := (Segment.listed_one (k := .funct)
    (m := (after (hal_export_funct unpinnedName 8 16 0 1 2) loading).shm) (by decide +kernel)
    (by decide +kernel)).mpr rfl
  exact Segment.not_listed (by decide +kernel) (h.listed hlisted)

/-! ### What a success leaves -/

/-- The function is listed with its pin and its parameters, under their whole names. -/
def Complete (m : Segment) (name : CStr) (comp_id : Int) : Prop :=
  ∃ c f, m.halpr_find_comp_by_id comp_id = some c ∧ c ≠ 0 ∧ m.Listed .funct f ∧
    (m.funct f).name = name ∧ (m.funct f).owner_ptr = c ∧
    (∃ p, m.Listed .pin p ∧ (m.pin p).name = name ++ dotTime ∧ (m.pin p).owner_ptr = c ∧
      (m.pin p).data_ptr_addr = f + FUNCT_RUNTIME) ∧
    m.ParamFor (name ++ dotTmax) c (f + FUNCT_MAXTIME) ∧
    m.ParamFor (name ++ dotTmaxIncreased) c (f + FUNCT_MAXTIME_INCREASED)

/-- The two parameters are there when they were before, or were added under their names. -/
theorem Gauged.complete {m m' : Segment} {g : Registry} {a : Arena} {name : CStr} {c new : Nat}
    {evs₁ evs₂ : List Event} (hg : Gauged m a name c new evs₁ evs₂) (h : Shape m.arena L)
    (h' : Shape m'.arena L') (hparams : g.params = (view m L).params)
    (hv : (view m' L').params = ((g.applyAll evs₁).applyAll evs₂).params) :
    (m'.ParamFor (name ++ dotTmax) c (new + FUNCT_MAXTIME) ∧
        m'.ParamFor (name ++ dotTmaxIncreased) c (new + FUNCT_MAXTIME_INCREASED)) ↔
      (m.ParamFor (name ++ dotTmax) c (new + FUNCT_MAXTIME) ∨ evs₁ ≠ []) ∧
        (m.ParamFor (name ++ dotTmaxIncreased) c (new + FUNCT_MAXTIME_INCREASED) ∨
          evs₂ ≠ [] ∧ increased_name name = name ++ dotTmaxIncreased) := by
  obtain ⟨⟨x₁, ha₁⟩, x₂, ha₂⟩ := hg
  have hmem : ∀ p, p ∈ (view m' L').params ↔ (p ∈ (view m L).params ∨ evs₁ ≠ [] ∧ p = (x₁, _)) ∨
      evs₂ ≠ [] ∧ p = (x₂, _) := fun p => by
    rw [hv, ha₂.params, ha₁.params, hparams]
  have hoff : new + FUNCT_MAXTIME ≠ new + FUNCT_MAXTIME_INCREASED := by
    unfold FUNCT_MAXTIME FUNCT_MAXTIME_INCREASED
    omega
  simp only [h.param_for, h'.param_for, hmem]
  refine and_congr ⟨?_, ?_⟩ ⟨?_, ?_⟩
  · rintro ⟨p, (hp | ⟨he, rfl⟩) | ⟨he, rfl⟩, h₁, h₂, h₃⟩
    · exact .inl ⟨p, hp, h₁, h₂, h₃⟩
    · exact .inr he
    · exact absurd h₃.symm hoff
  · rintro (⟨p, hp, hrest⟩ | he)
    · exact ⟨p, .inl (.inl hp), hrest⟩
    · exact ⟨_, .inl (.inr ⟨he, rfl⟩), rfl, rfl, rfl⟩
  · rintro ⟨p, (hp | ⟨he, rfl⟩) | ⟨he, rfl⟩, h₁, h₂, h₃⟩
    · exact .inl ⟨p, hp, h₁, h₂, h₃⟩
    · exact absurd h₃ hoff
    · exact .inr ⟨he, h₁⟩
  · rintro (⟨p, hp, hrest⟩ | ⟨he, e⟩)
    · exact ⟨p, .inl (.inl hp), hrest⟩
    · exact ⟨_, .inr ⟨he, rfl⟩, e, rfl, rfl⟩

theorem Adds.ne_nil {fits : Prop} {ev : Event} {evs : List Event} (h : Adds fits ev evs) :
    evs ≠ [] ↔ fits := by
  rcases h with ⟨hf, rfl⟩ | ⟨hf, rfl⟩
  · exact iff_of_true (List.cons_ne_nil _ _) hf
  · exact iff_of_false (not_not_intro rfl) hf

theorem increased_name_whole {name : CStr} :
    increased_name name = name ++ dotTmaxIncreased ↔
      ¬ (name ++ dotTmaxIncreased).length > HAL_NAME_LEN := by
  refine ⟨fun e => ?_, rt_snprintf_short⟩
  rw [← e, increased_name, rt_snprintf, List.length_take]
  omega

theorem Segment.ParamFor.taken {m : Segment} {name : CStr} {c off : Nat}
    (h : m.ParamFor name c off) : m.ParamTaken name :=
  h.imp fun _ h => ⟨h.1, h.2.1⟩

/-- What is added, in terms of the state before the call. -/
theorem Gauged.fit {name : CStr} {c new : Nat} {evs₁ evs₂ : List Event}
    (hg : Gauged s.shm (arena_behind s) name c new evs₁ evs₂) (hnew : new = new_funct s) :
    ((s.shm.ParamFor (name ++ dotTmax) c (new + FUNCT_MAXTIME) ∨ evs₁ ≠ []) ∧
        (s.shm.ParamFor (name ++ dotTmaxIncreased) c (new + FUNCT_MAXTIME_INCREASED) ∨
          evs₂ ≠ [] ∧ increased_name name = name ++ dotTmaxIncreased)) ↔
      ParamsFit s name c := by
  obtain ⟨⟨x₁, ha₁⟩, x₂, ha₂⟩ := hg
  subst hnew
  have hnames : name ++ dotTmax ≠ name ++ dotTmaxIncreased := fun e => by
    have := List.append_cancel_left e
    revert this
    decide
  -- with a whole name the second parameter is not the first one
  have hsecond : (s.shm.ParamFor (name ++ dotTmax) c (new_funct s + FUNCT_MAXTIME) ∨ evs₁ ≠ []) →
      ((evs₂ ≠ [] ∧ increased_name name = name ++ dotTmaxIncreased) ↔
        ¬ (name ++ dotTmaxIncreased).length > HAL_NAME_LEN ∧
          ¬ s.shm.ParamTaken (name ++ dotTmaxIncreased) ∧
          (s.shm.ParamTaken (name ++ dotTmax) → ¬ (arena_behind s).Full .param) ∧
          (¬ s.shm.ParamTaken (name ++ dotTmax) →
            ¬ ((arena_behind s).alloc .param).2.Full .param)) := by
    intro hfirst
    have hadded : evs₁ ≠ [] ↔ ¬ s.shm.ParamTaken (name ++ dotTmax) := by
      refine ⟨fun he => (ha₁.ne_nil.mp he).1, fun hno => hfirst.resolve_left fun hp => hno hp.taken⟩
    rw [ha₂.ne_nil, and_comm, increased_name_whole]
    refine and_congr_right fun hlen => ?_
    rw [increased_name_whole.mpr hlen]
    constructor
    · rintro ⟨h₁, h₂, h₃⟩
      exact ⟨fun h => h₁ (.inl h), fun ht => h₂ (not_not.mp fun he => hadded.mp he ht),
        fun hno => h₃ (hadded.mpr hno)⟩
    · rintro ⟨h₁, h₂, h₃⟩
      refine ⟨fun h => h.elim h₁ fun h => hnames h.2, fun he => h₂ ?_, fun he => h₃ (hadded.mp he)⟩
      exact not_not.mp fun hno => hadded.mpr hno he
  constructor
  · rintro ⟨h₁, h₂⟩
    exact ⟨h₁.imp_right ha₁.ne_nil.mp, h₂.imp_right (hsecond h₁).mp⟩
  · intro hp
    have h₁ := hp.tmax.imp_right ha₁.ne_nil.mpr
    exact ⟨h₁, hp.increased.imp_right (hsecond h₁).mpr⟩

/-- A finished call, in terms of its parameters. -/
theorem complete_iff {name : CStr} {comp_id : Int} {c x : Nat} {f : Funct} {p : Pin}
    {evs₁ evs₂ : List Event} (h : Inv s L) (hpub : Publishes s name comp_id c)
    (hfound : (view s.shm L).findComp comp_id = some (c, s.shm.comp c)) (hf : f.name = name)
    (hfc : f.owner_ptr = c) (hp : p.name = name ++ dotTime) (hpc : p.owner_ptr = c)
    (hpd : p.data_ptr_addr = new_funct s + FUNCT_RUNTIME)
    (hg : Gauged s.shm (arena_behind s) name c (new_funct s) evs₁ evs₂)
    (hm : Moved s L (.addFunct (new_funct s) f :: .addPin x p :: (evs₁ ++ evs₂)) s' L') :
    Complete s'.shm name comp_id ↔ ParamsFit s name c := by
  have hshape := hm.inv.good.shape
  set g₁ := (view s.shm L).applyAll [.addFunct (new_funct s) f, .addPin x p] with hg₁
  have hview : view s'.shm L' = (g₁.applyAll evs₁).applyAll evs₂ := by
    rw [hm.events, ← Registry.applyAll_append, hg₁, ← Registry.applyAll_append]
    rfl
  have hkeep : ∀ {α : Type} (t : Registry → α), (∀ g y q, t (g.apply (.addParam y q)) = t g) →
      t (view s'.shm L') = t g₁ := fun t ht => by
    rw [hview, hg.keeps t ht]
  have hfuncts : (view s'.shm L').functs = enter (NameLt Funct.name) (new_funct s, f)
      (view s.shm L).functs := hkeep Registry.functs fun _ _ _ => rfl
  have hpins : (view s'.shm L').pins = enter (NameLt Pin.name) (x, p) (view s.shm L).pins :=
    hkeep Registry.pins fun _ _ _ => rfl
  have hcomps : (view s'.shm L').comps = (view s.shm L).comps :=
    hkeep Registry.comps fun _ _ _ => rfl
  have hcomp : s'.shm.halpr_find_comp_by_id comp_id = some c := by
    rcases find_comp_cases hshape comp_id with ⟨-, hv⟩ | ⟨c', -, -, hf', hv, -⟩
    · rw [Registry.findComp, hcomps] at hv
      rw [Registry.findComp, hv] at hfound
      cases hfound
    · rw [Registry.findComp, hcomps] at hv
      rw [Registry.findComp, hv] at hfound
      exact hf'.trans (congrArg some (congrArg Prod.fst (Option.some.inj hfound)))
  rw [← hg.fit rfl, ← hg.complete (g := g₁) h.good.shape hshape rfl (congrArg _ hview)]
  constructor
  · rintro ⟨c', y, hc', -, hy, hyn, -, -, hrest⟩
    obtain rfl : c = c' := Option.some.inj (hcomp.symm.trans hc')
    -- the function with the name is the new one
    have hmem : (y, s'.shm.funct y) ∈ (view s'.shm L').functs :=
      mem_tab.mpr ⟨hshape.listed.mp hy, rfl⟩
    rw [hfuncts] at hmem
    rcases mem_enter.mp hmem with e | hmem
    · obtain rfl : y = new_funct s := congrArg Prod.fst e
      exact hrest
    · obtain ⟨hx, he⟩ := mem_tab.mp hmem
      refine absurd ?_ (hpub.free y (h.good.shape.listed.mpr hx))
      rw [rt_snprintf_short hpub.short, ← hyn]
      exact congrArg Funct.name he.symm
  · intro hparams
    have hfm : (new_funct s, f) ∈ (view s'.shm L').functs := by
      rw [hfuncts]
      exact mem_enter.mpr (.inl rfl)
    have hpm : (x, p) ∈ (view s'.shm L').pins := by
      rw [hpins]
      exact mem_enter.mpr (.inl rfl)
    obtain ⟨hfx, hfe⟩ := mem_tab.mp hfm
    obtain ⟨hpx, hpe⟩ := mem_tab.mp hpm
    have hfe : f = s'.shm.funct (new_funct s) := hfe
    have hpe : p = s'.shm.pin x := hpe
    exact ⟨c, new_funct s, hcomp, hpub.found.2, hshape.listed.mpr hfx, hfe ▸ hf, hfe ▸ hfc,
      ⟨x, hshape.listed.mpr hpx, hpe ▸ hp, hpe ▸ hpc, hpe ▸ hpd⟩, hparams⟩

/-- **When a success is complete.**  It is so unless a parameter is refused, or its name is cut. -/
theorem hal_export_funct_complete (h : Reachable R s) (name : CStr) (funct arg : Addr)
    (uses_fp reentrant comp_id : Int) :
    (∀ s', hal_export_funct name funct arg uses_fp reentrant comp_id s = .ok 0 s' →
        Complete s'.shm name comp_id) ↔
      ∀ c, Publishes s name comp_id c → PinFits s name → ParamsFit s name c := by
  obtain ⟨L, hinv⟩ := h.inv
  have hexp := hal_export_funct_exported hinv name funct arg uses_fp reentrant comp_id
  constructor
  · intro hall c hpub hfits
    obtain ⟨r, s', hrun, he⟩ := hexp.exists_ok
    cases he with
    | refused hno _ _ => exact absurd hpub (hno c)
    | unpinned _ hno _ _ => exact absurd hfits hno
    | done hpub' _ hfound h₁ h₂ h₃ h₄ h₅ hg hm =>
        obtain rfl := Option.some.inj (hpub.found.1.symm.trans hpub'.found.1)
        exact (complete_iff hinv hpub' hfound h₁ h₂ h₃ h₄ h₅ hg hm).mp (hall s' hrun)
  · intro hfit s' hrun
    have he := hexp.of_ok hrun
    cases he with
    | refused _ hr _ => exact absurd rfl hr
    | unpinned _ _ hr _ => exact absurd rfl hr
    | done hpub hpin hfound h₁ h₂ h₃ h₄ h₅ hg hm =>
        exact (complete_iff hinv hpub hfound h₁ h₂ h₃ h₄ h₅ hg hm).mpr (hfit _ hpub hpin)

theorem hal_export_funct_complete_sample :
    result (hal_export_funct (lit ['f']) 8 16 0 1 2) loading = some 0 ∧
      ∀ s', hal_export_funct (lit ['f']) 8 16 0 1 2 loading = .ok 0 s' →
        Complete s'.shm (lit ['f']) 2 := by
  refine ⟨by decide +kernel, ?_⟩
  refine (hal_export_funct_complete loading_reachable (lit ['f']) 8 16 0 1 2).mpr fun c _ _ => ?_
  have hnone : ∀ n, ¬ loading.shm.ParamTaken n := fun n ⟨p, hp, _⟩ =>
    Segment.not_listed (by decide +kernel) hp
  exact ⟨.inr ⟨hnone _, by decide +kernel⟩,
    .inr ⟨by decide, hnone _, fun h => absurd h (hnone _), fun _ => by decide +kernel⟩⟩

/-- A name of 42 bytes: the first 47 bytes of its `.tmax-increased` are its `.tmax`. -/
def cutName : CStr := List.replicate 42 102

/-- The call succeeds with one parameter. -/
theorem cut_incomplete : Reachable (rtapi serving) loading ∧
    ∃ s', hal_export_funct cutName 8 16 0 1 2 loading = .ok 0 s' ∧ ¬ Complete s'.shm cutName 2 := by
  have hrun : result (hal_export_funct cutName 8 16 0 1 2) loading = some 0 := by decide +kernel
  refine ⟨loading_reachable, _, result_eq hrun, fun ⟨c, f, _, _, _, _, _, _, _, p, hp, hn, _⟩ => ?_⟩
  rw [Segment.listed_one (by decide +kernel) (by decide +kernel)] at hp
  subst hp
  revert hn
  decide +kernel

end RTS.Hal

import RealTimeSystem.Hal.Refine

/-!
# HAL — registering pins, parameters and functions

`hal_pin_new`, `hal_param_new` and the first half of `hal_export_funct` are the operations of
`Abstract.lean` (`hal_pin_new_refines`, `hal_param_new_refines`, `export_funct_refines`).  The
three share the end: the new structure is filled in and inserted by name, or freed when its name is
taken.  `Filled` is what holds when it is filled in, and `insert_new_wp` is that end.
-/

namespace RTS.Hal

open RTS.Support

variable {σ : Type}

/-- `m'` is `m` with a new structure `x` in hand, ready to be inserted with the event `ev`. -/
structure Filled (k : Kind) (names : Segment → Nat → CStr) (free : Segment → Nat → Option Segment)
    (m : Segment) (L : Lists) (m' : Segment) (x : Nat) (dup : Prop) (ev : Event) : Prop where
  kind : k ≠ .entry
  shape : Shape m'.arena (L.grab k x)
  plain : Plain m'
  frame : m'.mutex = m.mutex ∧ m'.lock = m.lock ∧ m'.state = m.state
  sorted : (L.act k).Pairwise (OffLt (names m'))
  taken : (∃ y ∈ L.act k, names m' y = names m' x) ↔ dup
  grown : Grown m.arena m'.arena
  put : ∀ a, view { m' with arena := a }
    ((L.grab k x).put k (enter (OffLt (names m')) x (L.act k))) = (view m L).apply ev
  ok : ¬ dup → ev.Ok (view m L)
  freed : ∃ m'', free m' x = some m'' ∧ Same m L m'' ((L.grab k x).drop k x) ∧
    Grown m'.arena m''.arena ∧ Shape m''.arena ((L.grab k x).drop k x) ∧ Plain m'' ∧
    m''.mutex = m.mutex ∧ m''.lock = m.lock ∧ m''.state = m.state

/-- **Inserting a new structure.**  It is inserted by name, or freed when its name is taken. -/
theorem insert_new_wp {s : State σ} {L : Lists} {k : Kind} {names : Segment → Nat → CStr}
    {free : Segment → Nat → Option Segment} {m m' : Segment} {x : Nat} {dup : Prop} {ev : Event}
    {E : Stop → State σ → Prop} {Q : Bool → State σ → Prop} (hg : Good m L) (hi : Idle L)
    (hmx : m.mutex = true) (h : Filled k names free m L m' x dup ev)
    (hin : ∀ m'' L', ¬ dup → Good m'' L' → Idle L' → view m'' L' = (view m L).apply ev →
      m''.lock = m.lock → m''.state = m.state → Grown m.arena m''.arena →
      (∃ a, m'' = { m' with arena := a }) → Q true (closed s m''))
    (hout : ∀ m'' L', dup → Good m'' L' → Idle L' → view m'' L' = view m L →
      m''.lock = m.lock → m''.state = m.state → Grown m.arena m''.arena →
      Q false (closed s m'')) :
    Wp (insert_new k names free x) (opened s m') Q E := by
  have hh := hi.grab_hand k x
  unfold insert_new
  rw [wp_bind]
  rcases insert_sorted_cases h.shape h.kind hh (names m') h.sorted with
    ⟨hdup, hs⟩ | ⟨hnew, a, hs, hgrown, hshape⟩
  · rw [wp_walkTo_opened hs, if_neg (by decide), wp_bind]
    obtain ⟨m'', hf, hsame, hgrown, hshape, hplain, e₁, e₂, e₃⟩ := h.freed
    rw [wp_walkTo_opened (by rw [hf]; rfl), wp_bind, wp_close (e₁.trans hmx)]
    exact hout m'' _ (h.taken.mp hdup) (hg.same hsame hshape hplain) (hi.grab_drop k x)
      hsame.view_eq e₂ e₃ (h.grown.trans hgrown)
  · rw [wp_walkTo_opened hs, if_pos rfl, wp_bind,
      wp_close (m := { m' with arena := a }) (h.frame.1.trans hmx)]
    have hnt : ¬ dup := fun ht => by
      obtain ⟨y, hy, e⟩ := h.taken.mpr ht
      exact hnew y hy e
    have hv := h.put a
    refine hin { m' with arena := a } _ hnt ⟨hshape, ?_, h.plain⟩ (hi.grab_put k x _) hv h.frame.2.1
      h.frame.2.2 (h.grown.trans hgrown) ⟨a, rfl⟩
    exact hv.symm ▸ hg.sound.apply (h.ok hnt)

/-- The name of the new structure is taken, read off the table. -/
theorem taken_iff {α : Type} {f : Nat → α} (name : α → CStr) {x : Nat} {a : α} {xs : List Nat}
    (hx : x ∉ xs) :
    (∃ y ∈ xs, name (Function.update f x a y) = name (Function.update f x a x)) ↔
      ∃ q ∈ tab f xs, name q.2 = name a := by
  rw [Function.update_self]
  constructor
  · rintro ⟨y, hy, e⟩
    rw [Function.update_of_ne (ne_of_mem_of_not_mem hy hx)] at e
    exact ⟨(y, f y), mem_tab.mpr ⟨hy, rfl⟩, e⟩
  · rintro ⟨q, hq, e⟩
    obtain ⟨hy, hq⟩ := mem_tab.mp hq
    refine ⟨q.1, hy, ?_⟩
    rw [Function.update_of_ne (ne_of_mem_of_not_mem hy hx), ← hq, e]

/-! ### Parameters -/

theorem alloc_param_cases {m : Segment} {L : Lists} (h : Shape m.arena L) (hp : Plain m) :
    ((m.arena.alloc .param).1 = 0 ∧ m.alloc_param_struct = (0, m)) ∨
      ∃ x a p, (m.arena.alloc .param).1 = x ∧ x ≠ 0 ∧ Grown m.arena a ∧
        Shape a (L.grab .param x) ∧ p.oldname = 0 ∧
        m.alloc_param_struct = (x, { m with arena := a }.setParam x p) := by
  rcases h.alloc_or (k := .param) (by decide) (by decide) with ha | ⟨x, a, ha, h0, hg, hs⟩
  · exact .inl ⟨by rw [ha], by simp [Segment.alloc_param_struct, ha]⟩
  · exact .inr ⟨x, a, { m.param x with
      data_ptr := 0, owner_ptr := 0, type := .uninitialized, name := [] }, by rw [ha], h0, hg, hs,
      (hp x).2, by simp [Segment.alloc_param_struct, ha, h0]⟩

/-- A new parameter `x` with the record `p`. -/
theorem filled_param {m : Segment} {L : Lists} {a : Arena} {x : Nat} {p : Param} (hg : Good m L)
    (hi : Idle L) (hgr : Grown m.arena a) (hs : Shape a (L.grab .param x))
    (ho : p.owner_ptr ∈ L.act .comp) (hn : p.oldname = 0) :
    Filled .param (fun m x => (m.param x).name) (fun m x => some (m.free_param_struct x)) m L
      { m with arena := a, param := Function.update m.param x p } x
      (∃ q ∈ (view m L).params, q.2.name = p.name) (.addParam x p) := by
  have hx : x ∉ L.act .param := hs.grab_fresh (by decide)
  have hplain : ∀ p : Param, p.oldname = 0 →
      ∀ y, (m.pin y).oldname = 0 ∧ (Function.update m.param x p y).oldname = 0 := by
    intro p hp y
    by_cases hy : y = x
    · subst hy; simpa [hp] using (hg.plain y).1
    · simpa [hy] using hg.plain y
  refine
    { kind := by decide
      shape := hs
      plain := hplain p hn
      frame := ⟨rfl, rfl, rfl⟩
      sorted := sorted_update hx (sorted_tab.mp hg.sound.params_sorted)
      taken := taken_iff Param.name hx
      grown := hgr
      put := fun a' => ?_
      ok := fun h => ⟨fun q hq he => h ⟨q, hq, he⟩, by simpa [view] using ho⟩
      freed := ?_ }
  · simp [view, Registry.apply, Lists.put, Lists.grab, slot, tab_enter hx]
  · have hh := hi.grab_hand .param x
    have hfree : ({ m with arena := a, param := Function.update m.param x p } :
        Segment).free_param_struct x = { m with
          arena := a.setPool .param ((a.pool .param).pushFree x)
          param := Function.update m.param x { p with
            data_ptr := 0, owner_ptr := 0, type := .uninitialized, name := [] } } := by
      simp [Segment.free_param_struct, Segment.setParam, Segment.pushFree, Segment.onArena, hn]
    refine ⟨_, congrArg some hfree, ?_, .of_eq rfl rfl, hs.drop (by decide) (by decide) hh,
      hplain _ hn, rfl, rfl, rfl⟩
    exact { Same.refl m L with
      param := fun y hy => Function.update_of_ne (ne_of_mem_of_not_mem hy hx) _ _ }

/-! ### Pins -/

theorem alloc_pin_cases {m : Segment} {L : Lists} (h : Shape m.arena L) :
    ((m.arena.alloc .pin).1 = 0 ∧ m.alloc_pin_struct = (0, m)) ∨
      ∃ x a, (m.arena.alloc .pin).1 = x ∧ x ≠ 0 ∧ Grown m.arena a ∧ Shape a (L.grab .pin x) ∧
        m.alloc_pin_struct = (x, { m with arena := a }.setPin x {}) := by
  rcases h.alloc_or (k := .pin) (by decide) (by decide) with ha | ⟨x, a, ha, h0, hg, hs⟩
  · exact .inl ⟨by rw [ha], by simp [Segment.alloc_pin_struct, ha]⟩
  · exact .inr ⟨x, a, by rw [ha], h0, hg, hs, by simp [Segment.alloc_pin_struct, ha, h0]⟩

/-- A new pin `x` with the record `p`; the cell and the dummy signal are written too. -/
theorem filled_pin {m : Segment} {L : Lists} {a : Arena} {x : Nat} {p : Pin} (base : Addr)
    (cell : Nat → Addr) (data : Addr → Int) (hg : Good m L) (hi : Idle L)
    (hgr : Grown m.arena a) (hs : Shape a (L.grab .pin x)) (hn : p.oldname = 0) :
    Filled .pin (fun m x => (m.pin x).name) (fun m x => some (m.free_pin_struct base x)) m L
      { m with arena := a, pin := Function.update m.pin x p, cell := cell, data := data } x
      (∃ q ∈ (view m L).pins, q.2.name = p.name) (.addPin x p) := by
  have hx : x ∉ L.act .pin := hs.grab_fresh (by decide)
  have hplain : ∀ p : Pin, p.oldname = 0 →
      ∀ y, (Function.update m.pin x p y).oldname = 0 ∧ (m.param y).oldname = 0 := by
    intro p hp y
    by_cases hy : y = x
    · subst hy; simpa [hp] using (hg.plain y).2
    · simpa [hy] using hg.plain y
  refine
    { kind := by decide
      shape := hs
      plain := hplain p hn
      frame := ⟨rfl, rfl, rfl⟩
      sorted := sorted_update hx (sorted_tab.mp hg.sound.pins_sorted)
      taken := taken_iff Pin.name hx
      grown := hgr
      put := fun a' => ?_
      ok := fun h q hq he => h ⟨q, hq, he⟩
      freed := ?_ }
  · simp [view, Registry.apply, Lists.put, Lists.grab, slot, tab_enter hx]
  · have hh := hi.grab_hand .pin x
    have hfree : ({ m with
          arena := a, pin := Function.update m.pin x p, cell := cell, data := data } :
        Segment).free_pin_struct base x = { m with
          arena := a.setPool .pin ((a.pool .pin).pushFree x)
          pin := Function.update m.pin x { p with
            data_ptr_addr := 0, owner_ptr := 0, type := .uninitialized, signal := 0, name := [] }
          cell := cell, data := Function.update data (base + x + PIN_DUMMYSIG) 0 } := by
      simp [Segment.free_pin_struct, Segment.setPin, Segment.setData, Segment.pushFree,
        Segment.onArena, hn]
    refine ⟨_, congrArg some hfree, ?_, .of_eq rfl rfl, hs.drop (by decide) (by decide) hh,
      hplain _ hn, rfl, rfl, rfl⟩
    exact { Same.refl m L with
      pin := fun y hy => Function.update_of_ne (ne_of_mem_of_not_mem hy hx) _ _ }

/-! ### Functions -/

theorem alloc_funct_cases {m : Segment} {L : Lists} (h : Shape m.arena L) :
    ((m.arena.alloc .funct).1 = 0 ∧ m.alloc_funct_struct = (0, m)) ∨
      ∃ x a, (m.arena.alloc .funct).1 = x ∧ x ≠ 0 ∧ Grown m.arena a ∧ Shape a (L.grab .funct x) ∧
        m.alloc_funct_struct = (x, { m with arena := a }.setFunct x {}) := by
  rcases h.alloc_or (k := .funct) (by decide) (by decide) with ha | ⟨x, a, ha, h0, hg, hs⟩
  · exact .inl ⟨by rw [ha], by simp [Segment.alloc_funct_struct, ha]⟩
  · exact .inr ⟨x, a, by rw [ha], h0, hg, hs, by simp [Segment.alloc_funct_struct, ha, h0]⟩

/-- A new function `x` with the record `f`, not used yet. -/
theorem filled_funct {m : Segment} {L : Lists} {a : Arena} {x : Nat} {f : Funct} (hg : Good m L)
    (hi : Idle L) (hgr : Grown m.arena a) (hs : Shape a (L.grab .funct x))
    (ho : f.owner_ptr ∈ L.act .comp) (hu : f.users = 0) :
    Filled .funct (fun m x => (m.funct x).name) Segment.free_funct_struct m L
      { m with arena := a, funct := Function.update m.funct x f } x
      (∃ q ∈ (view m L).functs, q.2.name = f.name) (.addFunct x f) := by
  have hx : x ∉ L.act .funct := hs.grab_fresh (by decide)
  refine
    { kind := by decide
      shape := hs
      plain := hg.plain
      frame := ⟨rfl, rfl, rfl⟩
      sorted := sorted_update hx (sorted_tab.mp hg.sound.functs_sorted)
      taken := taken_iff Funct.name hx
      grown := hgr
      put := fun a' => ?_
      ok := fun h => ⟨by simpa [view] using hx, fun q hq he => h ⟨q, hq, he⟩, hu,
        by simpa [view] using ho⟩
      freed := ?_ }
  · simp [view, Registry.apply, Lists.put, Lists.grab, slot, tab_enter hx]
  · have hh := hi.grab_hand .funct x
    have hfree : ({ m with arena := a, funct := Function.update m.funct x f } :
        Segment).free_funct_struct x = some { m with
          arena := a.setPool .funct ((a.pool .funct).pushFree x)
          funct := Function.update m.funct x {}
          cell := Function.update m.cell (x + FUNCT_RUNTIME) 0 } := by
      simp [Segment.free_funct_struct, Segment.setFunct, Segment.setCell, Segment.pushFree,
        Segment.onArena, hu]
    refine ⟨_, hfree, ?_, .of_eq rfl rfl, hs.drop (by decide) (by decide) hh, hg.plain, rfl, rfl,
      rfl⟩
    exact { Same.refl m L with
      funct := fun y hy => Function.update_of_ne (ne_of_mem_of_not_mem hy hx) _ _ }

/-! ### The operations -/

/-- The common end of `hal_pin_new` and `hal_param_new`.  `P` is what a success leaves. -/
theorem register_new_refines {s : State σ} {L : Lists} (h : Inv s L) {k : Kind}
    {names : Segment → Nat → CStr} {alloc : Segment → Nat × Segment}
    {fill : Nat → Nat → Segment → Segment} {free : Segment → Nat → Option Segment} {addr : Addr}
    {comp_id : Int} {new : Nat} {dup : Prop} [Decidable dup] {event : Nat → Event}
    {P : Segment → Prop}
    (hnew : (new = 0 ∧ alloc { s.shm with mutex := true } = (0, { s.shm with mutex := true })) ∨
      new ≠ 0 ∧ ∃ m₁, alloc { s.shm with mutex := true } = (new, m₁) ∧
        ∀ c ∈ L.act .comp, Filled k names free { s.shm with mutex := true } L (fill c new m₁) new
          dup (event c) ∧ ∀ a, P { fill c new m₁ with arena := a, mutex := false }) :
    Returns (register_new k names alloc fill free addr comp_id) s fun r s' =>
      Refines s L ((view s.shm L).register comp_id (SHMCHK s.hal_shmem_base addr) new dup event)
        r s' ∧ (r = 0 → P s'.shm) := by
  unfold register_new
  simp only [returns_bind, returns_get]
  unfold Returns
  set m : Segment := { s.shm with mutex := true } with hm
  have hg : Good m L := h.locked
  have err : ∀ e : Int, e ≠ 0 → (e = 0 → P (closed s m).shm) := fun e h₀ h₁ => absurd h₁ h₀
  rw [wp_open h.attached h.unlocked]
  rcases find_comp_cases hg.shape comp_id with ⟨hf, hv⟩ | ⟨c, hc, hc0, hf, hv, -⟩
  · rw [wp_walk_opened hf, if_pos rfl, wp_bind, wp_close rfl]
    have hv' : (view s.shm L).findComp comp_id = none := hv
    exact ⟨.refused h (by rw [Registry.register, hv']), err _ (by decide)⟩
  have hv' : (view s.shm L).findComp comp_id = some (c, m.comp c) := hv
  rw [wp_walk_opened hf, if_neg hc0]
  simp only [Registry.register, hv']
  refine .ite (fun hb => ?_) fun hb => ?_
  · rw [wp_bind, wp_close rfl]
    exact ⟨.refused h (if_pos (by simpa using hb)), err _ (by decide)⟩
  rw [if_neg (by simpa using hb), wp_bind, wp_look_opened]
  refine .ite (fun hr => ?_) fun hr => ?_
  · rw [wp_bind, wp_close rfl]
    exact ⟨.refused h (if_pos hr), err _ (by decide)⟩
  rw [if_neg hr, wp_bind, wp_take_opened]
  rcases hnew with ⟨h0, ha⟩ | ⟨h0, m₁, ha, hfill⟩
  · rw [ha, if_pos rfl, wp_bind, wp_close rfl]
    exact ⟨.refused h (if_pos h0), err _ (by decide)⟩
  obtain ⟨hF, hP⟩ := hfill c hc
  rw [ha, if_neg h0, if_neg h0, wp_bind, wp_change_opened, wp_bind]
  refine insert_new_wp hg h.idle rfl hF (fun m'' L' hd hg' hi' hv'' hl hst hgr hafter => ?_)
    fun m'' L' hd hg' hi' hv'' hl hst hgr => ?_
  · obtain ⟨a, ha⟩ := hafter
    rw [if_pos rfl]
    exact ⟨.done h (if_neg hd) hg' hi' hv'' hl hst hgr, fun _ => by rw [ha]; exact hP a⟩
  · rw [if_neg (by decide)]
    exact ⟨.done h (if_pos hd) hg' hi' hv'' hl hst hgr, fun h => absurd h (by decide)⟩

/-- The part of `hal_param_new` under the mutex; `base` is read before. -/
def param_new_insert (base : Addr) (name : CStr) (type : HalType) (dir : ParamDir)
    (data_addr : Addr) (comp_id : Int) : Prog σ Int :=
  register_new .param (fun m x => (m.param x).name) Segment.alloc_param_struct
    (Segment.fill_param base name type dir data_addr)
    (fun m x => some (m.free_param_struct x)) data_addr comp_id

theorem param_new_insert_refines {s : State σ} {L : Lists} (h : Inv s L) (base : Addr) (name : CStr)
    (type : HalType) (dir : ParamDir) (data_addr : Addr) (comp_id : Int) :
    Returns (param_new_insert base name type dir data_addr comp_id) s
      (Refines s L ((view s.shm L).register comp_id (SHMCHK s.hal_shmem_base data_addr)
        (s.shm.arena.alloc .param).1
        (∃ p ∈ (view s.shm L).params, p.2.name = rt_snprintf (HAL_NAME_LEN + 1) name) fun c =>
        .addParam (s.shm.arena.alloc .param).1
          { data_ptr := data_addr - base, owner_ptr := c, oldname := 0, type := type, dir := dir
            name := rt_snprintf (HAL_NAME_LEN + 1) name })) := by
  refine Returns.mono (register_new_refines (P := fun _ => True) h ?_) fun r s' hr => hr.1
  rcases alloc_param_cases h.locked.shape h.locked.plain with
    ⟨hx, ha⟩ | ⟨x, a, p, hx, h0, hg, hs, hp, ha⟩
  · exact .inl ⟨hx, ha⟩
  · have hx' : (s.shm.arena.alloc .param).1 = x := hx
    rw [hx']
    refine .inr ⟨h0, _, ha, fun c hc => ⟨?_, fun _ => trivial⟩⟩
    have := filled_param
      (p := ⟨data_addr - base, c, 0, type, dir, rt_snprintf (HAL_NAME_LEN + 1) name⟩) h.locked h.idle hg hs hc rfl
    have e : ∀ m : Segment, (m.setParam x p).fill_param base name type dir data_addr c x =
        { m with param := Function.update m.param x ⟨data_addr - base, c, 0, type, dir,
          rt_snprintf (HAL_NAME_LEN + 1) name⟩ } := fun m => by
      simp [Segment.fill_param, Segment.setParam, hp]
    rw [e]
    exact this

theorem hal_param_new_refines {s : State σ} {L : Lists} (h : Inv s L) (name : CStr)
    (type : HalType) (dir : ParamDir) (data_addr : Addr) (comp_id : Int) :
    Returns (hal_param_new name type dir data_addr comp_id) s
      (Refines s L ((view s.shm L).param_new s.hal_shmem_base s.shm.lock
        (s.shm.arena.alloc .param).1 name type dir data_addr comp_id)) := by
  unfold hal_param_new
  simp only [returns_bind, returns_get]
  refine .ite (fun h₀ => absurd h₀ h.attached) fun _ => ?_
  refine .ite (fun ht => .same h (if_pos (by simpa [Registry.paramType] using ht))) fun ht => ?_
  have ht' : ¬ ¬ Registry.paramType type := by simpa [Registry.paramType] using ht
  rw [Registry.param_new, if_neg ht']
  refine .ite (fun hd => .same h (if_pos hd)) fun hd => ?_
  rw [if_neg hd]
  refine .ite (fun hn => .same h (if_pos hn)) fun hn => ?_
  rw [if_neg hn]
  refine .ite (fun hl => .same h (if_pos hl)) fun hl => ?_
  rw [if_neg hl]
  exact param_new_insert_refines h s.hal_shmem_base name type dir data_addr comp_id

/-- The part of `hal_pin_new` under the mutex; `base` is read before. -/
def pin_new_insert (base : Addr) (name : CStr) (type : HalType) (data_ptr_addr : Addr)
    (comp_id : Int) : Prog σ Int :=
  register_new .pin (fun m x => (m.pin x).name) Segment.alloc_pin_struct
    (Segment.fill_pin base name type data_ptr_addr)
    (fun m x => some (m.free_pin_struct base x)) data_ptr_addr comp_id

/-- A success leaves the dummy signal in the pointer cell. -/
theorem pin_new_insert_refines {s : State σ} {L : Lists} (h : Inv s L) (base : Addr) (name : CStr)
    (type : HalType) (data_ptr_addr : Addr) (comp_id : Int) :
    Returns (pin_new_insert base name type data_ptr_addr comp_id) s fun r s' =>
      Refines s L ((view s.shm L).register comp_id (SHMCHK s.hal_shmem_base data_ptr_addr)
        (s.shm.arena.alloc .pin).1
        (∃ p ∈ (view s.shm L).pins, p.2.name = rt_snprintf (HAL_NAME_LEN + 1) name) fun c =>
        .addPin (s.shm.arena.alloc .pin).1
          { data_ptr_addr := data_ptr_addr - base, owner_ptr := c, signal := 0, oldname := 0
            type := type, name := rt_snprintf (HAL_NAME_LEN + 1) name }) r s' ∧
      (r = 0 → s'.shm.cell (data_ptr_addr - base) ≠ 0) := by
  refine Returns.mono (register_new_refines
    (P := fun m => m.cell (data_ptr_addr - base) ≠ 0) h ?_) fun r s' hr => hr
  rcases alloc_pin_cases h.locked.shape with ⟨hx, ha⟩ | ⟨x, a, hx, h0, hg, hs, ha⟩
  · exact .inl ⟨hx, ha⟩
  · have hx' : (s.shm.arena.alloc .pin).1 = x := hx
    rw [hx']
    refine .inr ⟨h0, _, ha, fun c hc => ⟨?_, fun a' => ?_⟩⟩
    · have := filled_pin (p := ⟨data_ptr_addr - base, c, 0, 0, type,
        rt_snprintf (HAL_NAME_LEN + 1) name⟩)
        base (Function.update s.shm.cell
          (data_ptr_addr - base) ((s.shm.comp c).shmem_base + (x + PIN_DUMMYSIG)))
        (Function.update s.shm.data (base + x + PIN_DUMMYSIG) 0)
        h.locked h.idle hg hs rfl
      have e : ∀ m : Segment, (m.setPin x {}).fill_pin base name type data_ptr_addr c x =
          { m with
            pin := Function.update m.pin x ⟨data_ptr_addr - base, c, 0, 0, type,
              rt_snprintf (HAL_NAME_LEN + 1) name⟩
            cell := Function.update m.cell (data_ptr_addr - base)
              ((m.comp c).shmem_base + (x + PIN_DUMMYSIG))
            data := Function.update m.data (base + x + PIN_DUMMYSIG) 0 } := fun m => by
        simp [Segment.fill_pin, Segment.setPin, Segment.setData, Segment.setCell]
      rw [e]
      exact this
    · simp [Segment.fill_pin, Segment.setPin, Segment.setData, Segment.setCell, PIN_DUMMYSIG]

/-- It does not return when the cell cannot be read. -/
theorem hal_pin_new_spec {s : State σ} {L : Lists} (h : Inv s L) (name : CStr)
    (type : HalType) (data_ptr_addr : Addr) (comp_id : Int) :
    Wp (hal_pin_new name type data_ptr_addr comp_id) s (fun r s' =>
      s.Reads data_ptr_addr ∧ Refines s L ((view s.shm L).pin_new s.hal_shmem_base s.shm.lock
        (s.shm.arena.alloc .pin).1 name type data_ptr_addr comp_id) r s' ∧
      (r = 0 → s'.shm.cell (data_ptr_addr - s.hal_shmem_base) ≠ 0))
      fun e _ => e = .segv ∧ ¬ s.Reads data_ptr_addr := by
  have err : ∀ (e : Int) (s' : State σ), e ≠ 0 →
      (e = 0 → s'.shm.cell (data_ptr_addr - s.hal_shmem_base) ≠ 0) := fun e s' h₀ h₁ => absurd h₁ h₀
  unfold hal_pin_new
  simp only [wp_bind, wp_get]
  refine .ite (fun h₀ => absurd h₀ h.attached) fun _ => ?_
  rw [wp_bind]
  refine wp_load_or (fun hread => ?_) fun hno => ⟨rfl, hno⟩
  refine .ite (fun ht => ⟨hread, .same h (if_pos ?_), err _ _ (by decide)⟩) fun ht => ?_
  · simpa [Registry.paramType, and_assoc] using ht
  have ht' : ¬ ¬ (Registry.paramType type ∨ type = .port) := by
    simpa [Registry.paramType, or_assoc] using ht
  rw [Registry.pin_new, if_neg ht']
  refine .ite (fun hn => ⟨hread, .same h (if_pos hn), err _ _ (by decide)⟩) fun hn => ?_
  rw [if_neg hn]
  refine .ite (fun hl => ⟨hread, .same h (if_pos hl), err _ _ (by decide)⟩) fun hl => ?_
  rw [if_neg hl]
  exact (pin_new_insert_refines h s.hal_shmem_base name type data_ptr_addr comp_id).to_wp.mono
    (fun _ _ hr => ⟨hread, hr⟩) fun _ _ => id

theorem hal_pin_new_refines {s : State σ} {L : Lists} (h : Inv s L) (name : CStr)
    (type : HalType) {data_ptr_addr : Addr} (hread : s.Reads data_ptr_addr) (comp_id : Int) :
    Returns (hal_pin_new name type data_ptr_addr comp_id) s fun r s' =>
      Refines s L ((view s.shm L).pin_new s.hal_shmem_base s.shm.lock
        (s.shm.arena.alloc .pin).1 name type data_ptr_addr comp_id) r s' ∧
      (r = 0 → s'.shm.cell (data_ptr_addr - s.hal_shmem_base) ≠ 0) :=
  (hal_pin_new_spec h name type data_ptr_addr comp_id).mono (fun _ _ => And.right)
    fun _ _ ⟨_, hno⟩ => absurd hread hno

theorem hal_pin_newf_spec {s : State σ} {L : Lists} (h : Inv s L) (type : HalType)
    (data_ptr_addr : Addr) (comp_id : Int) (full : CStr) :
    Wp (hal_pin_newf type data_ptr_addr comp_id full) s (fun r s' =>
      Refines s L ((view s.shm L).pin_newf s.hal_shmem_base s.shm.lock
        (s.shm.arena.alloc .pin).1 type data_ptr_addr comp_id full) r s' ∧
      (r = 0 → s'.shm.cell (data_ptr_addr - s.hal_shmem_base) ≠ 0))
      fun e _ => e = .segv ∧ ¬ s.Reads data_ptr_addr := by
  unfold hal_pin_newf hal_pin_newfv Registry.pin_newf
  refine .ite (fun hn => ?_) fun hn => ?_
  · exact ⟨.same h (if_pos hn), fun h => absurd h (by decide)⟩
  · rw [if_neg hn]
    exact (hal_pin_new_spec h _ type data_ptr_addr comp_id).mono (fun _ _ => And.right)
      fun _ _ => id

theorem hal_pin_newf_refines {s : State σ} {L : Lists} (h : Inv s L) (type : HalType)
    {data_ptr_addr : Addr} (hread : s.Reads data_ptr_addr) (comp_id : Int) (full : CStr) :
    Returns (hal_pin_newf type data_ptr_addr comp_id full) s fun r s' =>
      Refines s L ((view s.shm L).pin_newf s.hal_shmem_base s.shm.lock
        (s.shm.arena.alloc .pin).1 type data_ptr_addr comp_id full) r s' ∧
      (r = 0 → s'.shm.cell (data_ptr_addr - s.hal_shmem_base) ≠ 0) :=
  (hal_pin_newf_spec h type data_ptr_addr comp_id full).mono (fun _ _ => id)
    fun _ _ ⟨_, hno⟩ => absurd hread hno

/-- The return code of the part under the mutex. -/
def code : Except Int Nat → Int
  | .error e => e
  | .ok _ => 0

theorem export_funct_new_refines {s : State σ} {L : Lists} (h : Inv s L) {name : CStr}
    (hn : ¬ name.length > HAL_NAME_LEN) (hl : ¬ s.shm.lock &&& HAL_LOCK_LOAD ≠ 0)
    (funct arg : Addr) (uses_fp reentrant comp_id : Int) :
    Returns (export_funct_new name funct arg uses_fp reentrant comp_id) s fun made s' =>
      Refines s L ((view s.shm L).export_funct s.shm.lock (s.shm.arena.alloc .funct).1 name funct
        arg uses_fp reentrant comp_id) (code made) s' ∧
      (∀ e, made = .error e → e ≠ 0) ∧
      ∀ new, made = .ok new → new = (s.shm.arena.alloc .funct).1 := by
  have err : ∀ e : Int, e ≠ 0 → (∀ e', (Except.error e : Except Int Nat) = .error e' → e' ≠ 0) ∧
      ∀ new, (Except.error e : Except Int Nat) = .ok new → new = (s.shm.arena.alloc .funct).1 :=
    fun e he => ⟨fun e' h => (Except.error.inj h : e = e') ▸ he, fun _ h => nomatch h⟩
  unfold export_funct_new Returns
  rw [Registry.export_funct, if_neg hn, if_neg hl]
  set m : Segment := { s.shm with mutex := true } with hm
  have hg : Good m L := h.locked
  rw [wp_bind, wp_open h.attached h.unlocked, wp_bind]
  rcases find_comp_cases hg.shape comp_id with ⟨hf, hv⟩ | ⟨c, hc, hc0, hf, hv, -⟩
  · rw [wp_walk_opened hf, if_pos rfl, wp_bind, wp_close rfl]
    have hv' : (view s.shm L).findComp comp_id = none := hv
    exact ⟨.refused h (by rw [hv']; rfl), err _ (by decide)⟩
  have hv' : (view s.shm L).findComp comp_id = some (c, m.comp c) := hv
  rw [wp_walk_opened hf, if_neg hc0, wp_bind, wp_look_opened]
  simp only [hv']
  refine .ite (fun ht => ?_) fun ht => ?_
  · rw [wp_bind, wp_close rfl]
    exact ⟨.refused h (if_pos ht), err _ (by decide)⟩
  rw [if_neg ht, wp_bind, wp_look_opened]
  refine .ite (fun hr => ?_) fun hr => ?_
  · rw [wp_bind, wp_close rfl]
    exact ⟨.refused h (if_pos hr), err _ (by decide)⟩
  rw [if_neg hr, wp_bind, wp_take_opened]
  rcases alloc_funct_cases hg.shape with ⟨hx, ha⟩ | ⟨x, a, hx, h0, hgr, hs, ha⟩
  · have hx' : (s.shm.arena.alloc .funct).1 = 0 := hx
    rw [ha, if_pos rfl, wp_bind, wp_close rfl]
    exact ⟨.refused h (if_pos hx'), err _ (by decide)⟩
  have hx' : (s.shm.arena.alloc .funct).1 = x := hx
  rw [ha, if_neg h0, hx', if_neg h0, wp_bind, wp_change_opened, wp_bind]
  have hF := filled_funct (f := ⟨uses_fp, c, reentrant, 0, arg, funct,
    rt_snprintf (HAL_NAME_LEN + 1) name⟩) hg h.idle hgr hs hc rfl
  have e : ∀ m : Segment, ∀ f, (m.setFunct x {}).setFunct x f =
      { m with funct := Function.update m.funct x f } := fun m f => by simp [Segment.setFunct]
  rw [e]
  refine insert_new_wp hg h.idle rfl hF (fun m'' L' hd hg' hi' hv'' hl hst hgr _ => ?_)
    fun m'' L' hd hg' hi' hv'' hl hst hgr => ?_
  · rw [if_pos rfl]
    exact ⟨.done h (if_neg hd) hg' hi' hv'' hl hst hgr, fun _ h => (nomatch h),
      fun _ h => (Except.ok.inj h).symm⟩
  · rw [if_neg (by decide)]
    exact ⟨.done h (if_pos hd) hg' hi' hv'' hl hst hgr, hx' ▸ err (-EINVAL) (by decide)⟩

/-! ### All that a call registers -/

/-- A field of a listed structure is in the segment. -/
theorem Shape.shmchk {a : Arena} {L : Lists} {k : Kind} (h : Shape a L) (hk : k ≠ .entry) {x : Nat}
    (hx : x ∈ L.act k) {off : Nat} (hoff : off < k.size) (base : Addr) :
    SHMCHK base (base + (x + off)) = true := by
  have hc := h.carved_act hk hx
  have h₀ := h.mem.ne_zero hc
  have h₁ := (h.mem.inside k x hc).2
  simp only [SHMCHK, Bool.and_eq_true, decide_eq_true_eq]
  exact ⟨Nat.lt_add_of_pos_right (by omega), Nat.add_lt_add_left (by omega) base⟩

theorem Inv.reads_field {s : State σ} {L : Lists} (h : Inv s L) {k : Kind} (hk : k ≠ .entry) {x : Nat}
    (hx : x ∈ L.act k) {off : Nat} (hoff : off < k.size) : s.Reads (s.hal_shmem_base + (x + off)) :=
  .inl (h.good.shape.shmchk hk hx hoff _)

/-- A function that was added is listed. -/
theorem Moved.added_funct {s s' : State σ} {L L' : Lists} {x : Nat} {f : Funct}
    (h : Moved s L [.addFunct x f] s' L') :
    x ∈ L'.act .funct := by
  have hm : (x, f) ∈ (view s'.shm L').functs := by
    rw [h.events]
    exact mem_enter.mpr (.inl rfl)
  exact (mem_tab.mp hm).1

/-- What `hal_export_funct` lists under the mutex. -/
theorem Registry.export_funct_done {g : Registry} {lock : UInt8} {new : Nat} {name : CStr}
    {funct arg : Addr} {uses_fp reentrant comp_id : Int}
    (h : (g.export_funct lock new name funct arg uses_fp reentrant comp_id).1 = 0) :
    ∃ f, (g.export_funct lock new name funct arg uses_fp reentrant comp_id).2 = [.addFunct new f] := by
  unfold export_funct at h ⊢
  rcases hc : g.findComp comp_id with _ | ⟨c, comp⟩ <;> simp only [hc] at h ⊢
  · split_ifs at h <;> cases h
  · split_ifs at h ⊢ <;> first | exact ⟨_, rfl⟩ | cases h

/-- A change of a value in memory. -/
def State.setData (s : State σ) (p : Addr) (v : Int) : State σ :=
  { s with shm := s.shm.setData p v }

theorem returns_storeThrough {s : State σ} {c : Nat} (h : s.shm.cell c ≠ 0) {v : Int}
    {Q : Unit → State σ → Prop} :
    Returns (storeThrough c v : Prog σ Unit) s Q ↔ Q () (s.setData (s.shm.cell c) v) := by
  unfold storeThrough Returns
  rw [wp_bind, wp_look, wp_store h]
  rfl

theorem returns_setData {s : State σ} {p : Addr} {v : Int} {Q : Unit → State σ → Prop} :
    Returns (change fun m => m.setData p v : Prog σ Unit) s Q ↔ Q () (s.setData p v) := Iff.rfl

/-- From `s` to `s'` only things of the component `comp_id` were registered. -/
structure Enrolled (s : State σ) (L : Lists) (comp_id : Int) (evs : List Event) (s' : State σ)
    (L' : Lists) : Prop where
  moved : Moved s L evs s' L'
  still : Still s s'
  held : ∀ ev ∈ evs, (view s.shm L).Holder comp_id ev

namespace Enrolled

variable {s s' s'' : State σ} {L L' L'' : Lists} {comp_id : Int} {evs evs' : List Event}

theorem refl (h : Inv s L) : Enrolled s L comp_id [] s L :=
  ⟨.refl h, .refl s, fun _ h => absurd h List.not_mem_nil⟩

/-- A store to memory registers nothing. -/
theorem setData (h : Enrolled s L comp_id evs s' L') (p : Addr) (v : Int) :
    Enrolled s L comp_id evs (s'.setData p v) L' where
  moved :=
    { h.moved with
      inv := { h.moved.inv with
        good := ⟨h.moved.inv.good.shape, h.moved.inv.good.sound, h.moved.inv.good.plain⟩ } }
  still := ⟨⟨h.still.grown, h.still.strikes, h.still.calls⟩, h.still.rt, h.still.ref_cnt⟩
  held := h.held

theorem trans (h : Enrolled s L comp_id evs s' L') (h' : Enrolled s' L' comp_id evs' s'' L'') :
    Enrolled s L comp_id (evs ++ evs') s'' L'' where
  moved := h.moved.trans h'.moved
  still := h.still.trans h'.still
  held ev hev := by
    rcases List.mem_append.mp hev with hev | hev
    · exact h.held ev hev
    · -- registering leaves the components alone
      obtain ⟨c, comp, hc, hfor⟩ := h'.held ev hev
      have hcomps := (Registry.applyAll_for (g := view s.shm L) fun ev hev =>
        (h.held ev hev).imp fun c hc => hc.choose_spec.2).1
      rw [h.moved.events, Registry.findComp, hcomps] at hc
      exact ⟨c, comp, hc, hfor⟩

end Enrolled

/-- An operation that refines its abstract one registers what that one does. -/
theorem Refines.enrolled {s s' : State σ} {L : Lists} {r : Int} {spec : Int × List Event}
    (h : Refines s L spec r s') (comp_id : Int)
    (hspec : ∀ ev ∈ spec.2, (view s.shm L).Holder comp_id ev) :
    ∃ L', Enrolled s L comp_id spec.2 s' L' :=
  h.2.imp fun _ h => ⟨h.1, h.2, hspec⟩

theorem export_funct_pins_enrolled {s : State σ} {L : Lists} (h : Inv s L) (name : CStr) {new : Nat}
    (hnew : new ∈ L.act .funct) (comp_id : Int) :
    Returns (export_funct_pins name new comp_id) s fun _ s' =>
      ∃ evs L', Enrolled s L comp_id evs s' L' := by
  unfold export_funct_pins
  simp only [returns_bind, returns_get]
  have hread := h.reads_field (by decide) hnew (show FUNCT_RUNTIME < Kind.funct.size by decide)
  refine (hal_pin_newf_refines h _ hread _ _).mono fun r s₁ hpost => ?_
  obtain ⟨hr, hcell⟩ := hpost
  obtain ⟨L₁, h₁⟩ := hr.enrolled comp_id fun ev hev => Registry.pin_newf_for hev
  refine .ite (fun _ => ⟨_, L₁, h₁⟩) fun hr0 => ?_
  have hcell' : s₁.shm.cell (new + FUNCT_RUNTIME) ≠ 0 := by
    have := hcell (Decidable.not_not.mp hr0)
    rwa [Nat.add_sub_cancel_left] at this
  simp only [returns_bind]
  rw [returns_storeThrough hcell', returns_setData]
  have h₂ := (h₁.setData (s₁.shm.cell (new + FUNCT_RUNTIME)) 0).setData
    (s.hal_shmem_base + (new + FUNCT_MAXTIME)) 0
  refine (hal_param_new_refines h₂.moved.inv _ _ _ _ _).mono fun r₃ s₃ hr₃ => ?_
  obtain ⟨L₃, h₃⟩ := hr₃.enrolled comp_id fun ev hev => Registry.param_new_for hev
  rw [returns_setData]
  have h₄ := (h₂.trans h₃).setData (s.hal_shmem_base + (new + FUNCT_MAXTIME_INCREASED)) 0
  refine (hal_param_new_refines h₄.moved.inv _ _ _ _ _).mono fun r₅ s₅ hr₅ => ?_
  obtain ⟨L₅, h₅⟩ := hr₅.enrolled comp_id fun ev hev => Registry.param_new_for hev
  exact ⟨_, L₅, h₄.trans h₅⟩

/-- **Exporting a function.**  Only things of the component are registered. -/
theorem hal_export_funct_enrolled {s : State σ} {L : Lists} (h : Inv s L) (name : CStr)
    (funct arg : Addr) (uses_fp reentrant comp_id : Int) :
    Returns (hal_export_funct name funct arg uses_fp reentrant comp_id) s fun _ s' =>
      ∃ evs L', Enrolled s L comp_id evs s' L' := by
  unfold hal_export_funct
  simp only [returns_bind, returns_get]
  refine .ite (fun h₀ => absurd h₀ h.attached) fun _ => ?_
  refine .ite (fun _ => ⟨_, L, .refl h⟩) fun hn => ?_
  refine .ite (fun _ => ⟨_, L, .refl h⟩) fun hl => ?_
  rw [returns_bind]
  refine (export_funct_new_refines h hn hl _ _ _ _ _).mono fun made s₁ hpost => ?_
  obtain ⟨hr, -, hok⟩ := hpost
  obtain ⟨L₁, h₁⟩ := hr.enrolled comp_id fun ev hev => Registry.export_funct_for hev
  cases made with
  | error e => exact ⟨_, L₁, h₁⟩
  | ok new =>
      have hlisted : new ∈ L₁.act .funct := by
        obtain rfl := hok new rfl
        obtain ⟨f, hf⟩ := Registry.export_funct_done hr.1.symm
        exact (hf ▸ h₁.moved).added_funct
      refine (export_funct_pins_enrolled h₁.moved.inv name hlisted comp_id).mono fun _ s₂ h₂ => ?_
      obtain ⟨evs, L₂, h₂⟩ := h₂
      exact ⟨_, L₂, h₁.trans h₂⟩

end RTS.Hal

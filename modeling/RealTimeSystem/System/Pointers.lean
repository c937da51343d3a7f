import RealTimeSystem.Hal.Cells
import RealTimeSystem.Hal.Effects
import RealTimeSystem.System.Boot

/-!
# System — the pointers to pins

A pin is reached through a pointer cell in the segment, at its `data_ptr_addr`, which `hal_pin_new`
makes to point to the dummy signal of the pin.  It does so before it knows whether the name is
taken, and it does not ask whether another pin uses the cell; and the cell of the pin of a function
is in the structure of the function, which is cleared when the function goes.

**`pins_isolated`**: while no call writes over a cell in use, every pin on the list is reached
through its cell.
-/

namespace RTS.Hal

open RTS.Support RTS.Uspace

variable {σ : Type} {R : Rtapi σ} {s s' : State σ} {L L' : Lists}

/-! ### The cell of a new pin -/

section
variable (s : State σ) (name : CStr) (type : HalType) (data_ptr_addr : Addr) (comp_id : Int)

/-- `hal_pin_new` passes its checks, with the component `comp`, and gets a structure. -/
structure Places (comp : Nat) : Prop where
  type : Registry.paramType type ∨ type = .port
  short : ¬ name.length > HAL_NAME_LEN
  unlocked : s.shm.lock &&& HAL_LOCK_LOAD = 0
  found : s.shm.halpr_find_comp_by_id comp_id = some comp ∧ comp ≠ 0
  inside : SHMCHK s.hal_shmem_base data_ptr_addr
  unready : (s.shm.comp comp).ready = 0
  room : ¬ s.shm.arena.Full .pin

/-- The pin that `hal_pin_new` gets. -/
def new_pin : Nat := (s.shm.arena.alloc .pin).1

variable {s name type data_ptr_addr comp_id}

/-- What `hal_pin_new` does to the cells. -/
theorem hal_pin_new_cells (h : Inv s L) :
    Wp (hal_pin_new name type data_ptr_addr comp_id) s (fun r s' =>
      ((∀ c, ¬ Places s name type data_ptr_addr comp_id c) ∧ r ≠ 0 ∧ Uncelled s s') ∨
      ∃ c, Places s name type data_ptr_addr comp_id c ∧ s'.shm.cell = Function.update s.shm.cell
        (data_ptr_addr - s.hal_shmem_base) ((s.shm.comp c).shmem_base + (new_pin s + PIN_DUMMYSIG)))
      fun _ _ => True := by
  have hE : -EINVAL ≠ 0 := by decide
  have hP : -EPERM ≠ 0 := by decide
  have hM : -ENOMEM ≠ 0 := by decide
  unfold hal_pin_new
  simp only [wp_bind, wp_get]
  refine .ite (fun h₀ => absurd h₀ h.attached) fun _ => ?_
  refine wp_bind.mpr (wp_load_or (fun _ => ?_) fun _ => trivial)
  refine .ite (fun ht => .inl ⟨fun c hp => ?_, hE, rfl⟩) fun ht => ?_
  · simpa [Registry.paramType, and_assoc, ht] using hp.type
  have ht' : Registry.paramType type ∨ type = .port := by
    refine Decidable.by_contra fun hn => ht ?_
    simpa [Registry.paramType, and_assoc] using hn
  refine .ite (fun hn => .inl ⟨fun c hp => hp.short hn, hE, rfl⟩) fun hn => ?_
  refine .ite (fun hl => .inl ⟨fun c hp => hl hp.unlocked, hP, rfl⟩) fun hl => ?_
  unfold register_new
  simp only [wp_bind, wp_get]
  set m : Segment := { s.shm with mutex := true } with hm
  have hg : Good m L := h.locked
  rw [wp_open h.attached h.unlocked]
  rcases find_comp_cases hg.shape comp_id with ⟨hf, -⟩ | ⟨c, hc, hc0, hf, -, -⟩
  · rw [wp_walk_opened hf, if_pos rfl, wp_bind, wp_close rfl]
    refine .inl ⟨fun c hp => ?_, hE, rfl⟩
    exact hp.found.2 (Option.some.inj (hp.found.1.symm.trans hf))
  have hcomp : ∀ c', Places s name type data_ptr_addr comp_id c' → c' = c := fun c' hp =>
    Option.some.inj (hp.found.1.symm.trans hf)
  rw [wp_walk_opened hf, if_neg hc0]
  refine .ite (fun hb => ?_) fun hb => ?_
  · rw [wp_bind, wp_close rfl]
    exact .inl ⟨fun c hp => hb hp.inside, hE, rfl⟩
  rw [wp_bind, wp_look_opened]
  refine .ite (fun hr => ?_) fun hr => ?_
  · rw [wp_bind, wp_close rfl]
    exact .inl ⟨fun c' hp => hr (hcomp c' hp ▸ hp.unready), hE, rfl⟩
  rw [wp_bind, wp_take_opened]
  rcases alloc_pin_cases hg.shape with ⟨hx, ha⟩ | ⟨x, a, hx, h0, -, -, ha⟩
  · rw [ha, if_pos rfl, wp_bind, wp_close rfl]
    refine .inl ⟨fun c' hp => ?_, hM, rfl⟩
    exact (h.good.shape.alloc (by decide) (by decide) hp.room).1 hx
  have hplaces : Places s name type data_ptr_addr comp_id c :=
    { type := ht'
      short := hn
      unlocked := not_not.mp hl
      found := ⟨hf, hc0⟩
      inside := not_not.mp hb
      unready := not_not.mp hr
      room := fun hfull => h0 (hx.symm.trans (congrArg Prod.fst (Shape.alloc_full hfull))) }
  rw [ha, if_neg h0, wp_bind, wp_change_opened, wp_bind]
  have hnew : x = new_pin s := hx.symm
  refine (Uncelled.insert_new (fun h => by
    cases h
    exact free_pin_struct_cells _ _ _) (opened s _)).mono (fun inserted s' hs' => ?_) fun _ _ _ =>
    trivial
  have hcell : s'.shm.cell = Function.update s.shm.cell (data_ptr_addr - s.hal_shmem_base)
      ((s.shm.comp c).shmem_base + (new_pin s + PIN_DUMMYSIG)) := by
    rw [← hnew]
    exact hs'
  refine .ite (fun _ => .inr ⟨c, hplaces, hcell⟩) fun _ => .inr ⟨c, hplaces, hcell⟩

end

/-! ### Pins that are reached through their cells -/

/-- Every pin is reached through its cell, and every component knows where the segment is. -/
structure Pointed (s : State σ) (L : Lists) : Prop where
  inv : Inv s L
  points : ∀ p ∈ (view s.shm L).pins,
    s.shm.cell p.2.data_ptr_addr = s.hal_shmem_base + (p.1 + PIN_DUMMYSIG)
  based : ∀ p ∈ (view s.shm L).comps, p.2.shmem_base = s.hal_shmem_base

/-- The event brings no pin, and no component that does not know the segment. -/
def Event.Pinless (base : Addr) : Event → Prop
  | .addPin _ _ => False
  | .addComp _ c => c.shmem_base = base
  | .setComp _ c => c.shmem_base = base
  | _ => True

theorem Registry.applyAll_pinless {g : Registry} {base : Addr} {evs : List Event}
    (hevs : ∀ ev ∈ evs, ev.Pinless base) (hg : ∀ p ∈ g.comps, p.2.shmem_base = base) :
    (g.applyAll evs).pins = g.pins ∧ ∀ p ∈ (g.applyAll evs).comps, p.2.shmem_base = base := by
  induction evs generalizing g with
  | nil => exact ⟨rfl, hg⟩
  | cons ev evs ih =>
      have hev := hevs ev (by simp)
      have hstep : (g.apply ev).pins = g.pins ∧
          ∀ p ∈ (g.apply ev).comps, p.2.shmem_base = base := by
        cases ev with
        | addComp x c => exact ⟨rfl, List.forall_mem_cons.mpr ⟨hev, hg⟩⟩
        | setComp x c =>
            refine ⟨rfl, fun p hp => ?_⟩
            obtain ⟨q, hq, rfl⟩ := List.mem_map.mp hp
            split_ifs
            · exact hev
            · exact hg q hq
        | dropComp x => exact ⟨rfl, fun p hp => hg p (List.mem_of_mem_filter hp)⟩
        | addPin x p => exact hev.elim
        | _ => exact ⟨rfl, hg⟩
      obtain ⟨h₁, h₂⟩ := ih (fun ev' h' => hevs ev' (by simp [h'])) hstep.2
      exact ⟨h₁.trans hstep.1, h₂⟩

namespace Pointed

theorem moved {evs : List Event} (h : Pointed s L) (hm : Moved s L evs s' L')
    (hevs : ∀ ev ∈ evs, ev.Pinless s.hal_shmem_base)
    (hcell : ∀ p ∈ (view s.shm L).pins,
      s'.shm.cell p.2.data_ptr_addr = s.shm.cell p.2.data_ptr_addr) :
    Pointed s' L' := by
  obtain ⟨hpins, hcomps⟩ := Registry.applyAll_pinless hevs h.based
  refine ⟨hm.inv, fun p hp => ?_, ?_⟩
  · rw [hm.events, hpins] at hp
    rw [hcell p hp, hm.base]
    exact h.points p hp
  · rw [hm.events, hm.base]
    exact hcomps

/-- Only values in memory change. -/
theorem setData (h : Pointed s L) (p : Addr) (v : Int) : Pointed (s.setData p v) L :=
  ⟨{ h.inv with good := ⟨h.inv.good.shape, h.inv.good.sound, h.inv.good.plain⟩ }, h.points,
    h.based⟩

theorem setThread (h : Pointed s L) (t : Nat) {th : Thread} (hn : th.name = (s.shm.thread t).name) :
    Pointed { s with shm := s.shm.setThread t th } L := by
  obtain ⟨hg, hv⟩ := h.inv.good.setThread t hn
  refine ⟨{ h.inv with good := hg }, ?_, ?_⟩
  · rw [hv]
    exact h.points
  · rw [hv]
    exact h.based

/-- The listed pins, as the source walks them. -/
theorem listed_pin (h : Pointed s L) {p : Nat × Pin} (hp : p ∈ (view s.shm L).pins) :
    s.shm.Listed .pin p.1 ∧ p.2 = s.shm.pin p.1 := by
  obtain ⟨hx, he⟩ := mem_tab.mp hp
  exact ⟨h.inv.good.shape.listed.mpr hx, he⟩

end Pointed

/-! ### What writes over a cell -/

/-- `hal_pin_new` is given the name or the cell of a pin, and writes the cell. -/
def Spoils (s : State σ) (name : CStr) (type : HalType) (data_ptr_addr : Addr) (comp_id : Int) :
    Prop :=
  (∃ c, Places s name type data_ptr_addr comp_id c) ∧ ∃ x, s.shm.Listed .pin x ∧
    ((s.shm.pin x).name = rt_snprintf (HAL_NAME_LEN + 1) name ∨
      (s.shm.pin x).data_ptr_addr = data_ptr_addr - s.hal_shmem_base)

/-- What `hal_pin_new` comes to once it has a structure. -/
theorem Places.spec {name : CStr} {type : HalType} {data_ptr_addr : Addr} {comp_id : Int} {c : Nat}
    (hp : Places s name type data_ptr_addr comp_id c) (h : Inv s L) :
    c ∈ L.act .comp ∧ (view s.shm L).pin_new s.hal_shmem_base s.shm.lock (new_pin s) name type
        data_ptr_addr comp_id =
      if ∃ p ∈ (view s.shm L).pins, p.2.name = rt_snprintf (HAL_NAME_LEN + 1) name then (-EINVAL, [])
      else (0, [.addPin (new_pin s)
        { data_ptr_addr := data_ptr_addr - s.hal_shmem_base, owner_ptr := c, signal := 0
          oldname := 0, type := type, name := rt_snprintf (HAL_NAME_LEN + 1) name }]) := by
  rcases find_comp_cases h.good.shape comp_id with ⟨hf, -⟩ | ⟨c', hc', -, hf, hv, -⟩
  · exact absurd (Option.some.inj (hp.found.1.symm.trans hf)) hp.found.2
  obtain rfl : c = c' := Option.some.inj (hp.found.1.symm.trans hf)
  refine ⟨hc', ?_⟩
  have h0 : new_pin s ≠ 0 := (h.good.shape.alloc (by decide) (by decide) hp.room).1
  have hl : ¬ s.shm.lock &&& HAL_LOCK_LOAD ≠ 0 := not_not_intro hp.unlocked
  have hr : ¬ (s.shm.comp c).ready ≠ 0 := not_not_intro hp.unready
  rw [Registry.pin_new, if_neg (not_not_intro hp.type), if_neg hp.short, if_neg hl, Registry.register,
    hv]
  simp only [if_neg (not_not_intro hp.inside), if_neg hr, if_neg h0]

/-- A call that fails has no events. -/
theorem Registry.pin_new_failed {g : Registry} {base : Addr} {lock : UInt8} {new : Nat} {name : CStr}
    {type : HalType} {data_ptr_addr : Addr} {comp_id : Int}
    (h : (g.pin_new base lock new name type data_ptr_addr comp_id).1 ≠ 0) :
    (g.pin_new base lock new name type data_ptr_addr comp_id).2 = [] := by
  unfold Registry.pin_new Registry.register at h ⊢
  rcases hc : g.findComp comp_id with _ | ⟨c, comp⟩
  · split_ifs
    all_goals rfl
  · simp only [hc] at h ⊢
    split_ifs at h ⊢
    all_goals first
      | rfl
      | exact absurd rfl h

namespace Pointed

/-- **A new pin.**  It and the pins before it are reached through their cells, and an error leaves
every cell. -/
theorem hal_pin_new {name : CStr} {type : HalType} {data_ptr_addr : Addr} {comp_id : Int}
    (h : Pointed s L) (hn : ¬ Spoils s name type data_ptr_addr comp_id) :
    Wp (hal_pin_new name type data_ptr_addr comp_id) s
      (fun r s' => (∃ L', Pointed s' L') ∧ (r ≠ 0 → Uncelled s s')) fun _ _ => True := by
  refine (hal_pin_new_spec h.inv name type data_ptr_addr comp_id).with_eq.mono
    (fun r s' ⟨hrun, _, ⟨hr, L', hm, _⟩, _⟩ => ?_) fun _ _ _ => trivial
  rcases (hal_pin_new_cells h.inv).of_ok hrun with ⟨-, hr0, hcell⟩ | ⟨c, hp, hcell⟩
  · have hnil := Registry.pin_new_failed (hr ▸ hr0)
    refine ⟨⟨L', h.moved hm (by rw [hnil]; simp) fun p _ => ?_⟩, fun _ => hcell⟩
    rw [hcell]
  · obtain ⟨hc, hspec⟩ := hp.spec h.inv
    have hfree : ∀ p ∈ (view s.shm L).pins,
        p.2.name ≠ rt_snprintf (HAL_NAME_LEN + 1) name ∧
          p.2.data_ptr_addr ≠ data_ptr_addr - s.hal_shmem_base := by
      intro p hpin
      obtain ⟨hx, he⟩ := h.listed_pin hpin
      rw [he]
      exact ⟨fun e => hn ⟨⟨c, hp⟩, _, hx, .inl e⟩, fun e => hn ⟨⟨c, hp⟩, _, hx, .inr e⟩⟩
    rw [if_neg fun ⟨p, hpin, e⟩ => (hfree p hpin).1 e] at hspec
    rw [show (s.shm.arena.alloc .pin).1 = new_pin s from rfl, hspec] at hr hm
    refine ⟨⟨L', hm.inv, fun p hpin => ?_, ?_⟩, fun hr0 => absurd hr hr0⟩
    · rw [hm.events] at hpin
      rw [hcell, hm.base]
      rcases mem_enter.mp hpin with rfl | hpin
      · rw [Function.update_self]
        rw [h.based (c, s.shm.comp c) (mem_tab.mpr ⟨hc, rfl⟩)]
      · rw [Function.update_of_ne (hfree p hpin).2]
        exact h.points p hpin
    · rw [hm.events, hm.base]
      exact h.based

theorem hal_pin_newf {full : CStr} {type : HalType} {data_ptr_addr : Addr} {comp_id : Int}
    (h : Pointed s L) (hn : full.length ≤ HAL_NAME_LEN →
      ¬ Spoils s (rt_snprintf (HAL_NAME_LEN + 1) full) type data_ptr_addr comp_id) :
    Wp (hal_pin_newf type data_ptr_addr comp_id full) s (fun _ s' => ∃ L', Pointed s' L')
      fun _ _ => True := by
  unfold Hal.hal_pin_newf hal_pin_newfv
  refine .ite (fun _ => ⟨L, h⟩) fun hlen => ?_
  exact (h.hal_pin_new (hn (Nat.not_lt.mp hlen))).mono (fun _ _ hs => hs.1) fun _ _ => id

end Pointed

/-! ### Functions -/

/-- `hal_export_funct` passes its checks, with the component `comp`, and gets a structure. -/
structure Exports (s : State σ) (name : CStr) (comp_id : Int) (comp : Nat) : Prop where
  short : ¬ name.length > HAL_NAME_LEN
  unlocked : s.shm.lock &&& HAL_LOCK_LOAD = 0
  found : s.shm.halpr_find_comp_by_id comp_id = some comp ∧ comp ≠ 0
  kernel : (s.shm.comp comp).type ≠ .user
  unready : (s.shm.comp comp).ready = 0
  room : ¬ s.shm.arena.Full .funct

/-- The call clears the cell: it frees a function whose `runtime` that is. -/
def Op.Clears (s : State σ) (cell : Nat) : Op → Prop
  | .hal_export_funct name _ _ _ _ comp_id =>
      (∃ c, Exports s name comp_id c) ∧
        (∃ f, s.shm.Listed .funct f ∧ (s.shm.funct f).name = rt_snprintf (HAL_NAME_LEN + 1) name) ∧
        cell = (s.shm.arena.alloc .funct).1 + FUNCT_RUNTIME
  | .hal_exit comp_id =>
      s.shm.state ≠ .destroyed ∧ ∃ comp, comp ≠ 0 ∧
        s.shm.halpr_find_comp_by_id comp_id = some comp ∧
        ∃ f, (s.shm.funct f).owner_ptr = comp ∧ cell = f + FUNCT_RUNTIME
  | _ => False

/-- `hal_export_funct` fails then only because the name is taken. -/
theorem Exports.taken {name : CStr} {comp_id : Int} {c : Nat} (hp : Exports s name comp_id c)
    (h : Inv s L) {funct arg : Addr} {uses_fp reentrant : Int}
    (hfail : ((view s.shm L).export_funct s.shm.lock (s.shm.arena.alloc .funct).1 name funct arg
      uses_fp reentrant comp_id).1 ≠ 0) :
    ∃ f, s.shm.Listed .funct f ∧ (s.shm.funct f).name = rt_snprintf (HAL_NAME_LEN + 1) name := by
  rcases find_comp_cases h.good.shape comp_id with ⟨hf, -⟩ | ⟨c', -, -, hf, hv, -⟩
  · exact absurd (Option.some.inj (hp.found.1.symm.trans hf)) hp.found.2
  obtain rfl : c = c' := Option.some.inj (hp.found.1.symm.trans hf)
  have h0 : (s.shm.arena.alloc .funct).1 ≠ 0 :=
    (h.good.shape.alloc (by decide) (by decide) hp.room).1
  rw [Registry.export_funct, if_neg hp.short, if_neg (not_not_intro hp.unlocked), hv] at hfail
  simp only [if_neg hp.kernel, if_neg (not_not_intro hp.unready), if_neg h0] at hfail
  split_ifs at hfail with htaken
  · obtain ⟨p, hpin, e⟩ := htaken
    obtain ⟨hx, hrec⟩ := mem_tab.mp hpin
    exact ⟨p.1, h.good.shape.listed.mpr hx, by rw [← hrec]; exact e⟩
  · exact absurd rfl hfail

/-- A function whose name is taken is freed again. -/
theorem insert_funct_cells {names : Segment → Nat → CStr} {new : Nat} (s : State σ) :
    Wp (insert_new .funct names Segment.free_funct_struct new) s (fun inserted s' =>
      (inserted = true ∧ Uncelled s s') ∨ (inserted = false ∧
        s'.shm.cell = Function.update s.shm.cell (new + FUNCT_RUNTIME) 0)) fun _ _ => True := by
  unfold insert_new
  rw [wp_bind]
  refine (Uncelled.walkTo (fun m b m' h => ?_) s).mono (fun inserted s₁ hs₁ => ?_) fun _ _ _ => trivial
  · exact insert_sorted_cells h
  refine .ite (fun _ => .inl ⟨rfl, hs₁⟩) fun _ => ?_
  rw [wp_bind]
  unfold walkTo
  rw [wp_bind, wp_get]
  rcases hf : s₁.shm.free_funct_struct new with _ | m
  · simp only [hf, Option.map_none]
    exact trivial
  · simp only [hf, Option.map_some]
    refine .inr ⟨rfl, ?_⟩
    rw [← show s₁.shm.cell = s.shm.cell from hs₁]
    exact (free_funct_struct_cells hf).1

/-- What the first half of `hal_export_funct` does to the cells. -/
theorem export_funct_new_cells (h : Inv s L) {name : CStr} (hn : ¬ name.length > HAL_NAME_LEN)
    (hl : ¬ s.shm.lock &&& HAL_LOCK_LOAD ≠ 0) (funct arg : Addr) (uses_fp reentrant comp_id : Int) :
    Wp (export_funct_new name funct arg uses_fp reentrant comp_id) s (fun made s' =>
      Uncelled s s' ∨ (code made ≠ 0 ∧ (∃ c, Exports s name comp_id c) ∧ s'.shm.cell =
        Function.update s.shm.cell ((s.shm.arena.alloc .funct).1 + FUNCT_RUNTIME) 0))
      fun _ _ => True := by
  unfold export_funct_new
  set m : Segment := { s.shm with mutex := true } with hm
  have hg : Good m L := h.locked
  rw [wp_bind, wp_open h.attached h.unlocked, wp_bind]
  rcases find_comp_cases hg.shape comp_id with ⟨hf, -⟩ | ⟨c, hc, hc0, hf, -, -⟩
  · rw [wp_walk_opened hf, if_pos rfl, wp_bind, wp_close rfl]
    exact .inl rfl
  rw [wp_walk_opened hf, if_neg hc0, wp_bind, wp_look_opened]
  refine .ite (fun _ => ?_) fun ht => ?_
  · rw [wp_bind, wp_close rfl]
    exact .inl rfl
  rw [wp_bind, wp_look_opened]
  refine .ite (fun _ => ?_) fun hr => ?_
  · rw [wp_bind, wp_close rfl]
    exact .inl rfl
  rw [wp_bind, wp_take_opened]
  rcases alloc_funct_cases hg.shape with ⟨hx, ha⟩ | ⟨x, a, hx, h0, -, -, ha⟩
  · rw [ha, if_pos rfl, wp_bind, wp_close rfl]
    exact .inl rfl
  have hexports : Exports s name comp_id c :=
    { short := hn
      unlocked := not_not.mp hl
      found := ⟨hf, hc0⟩
      kernel := ht
      unready := not_not.mp hr
      room := fun hfull => h0 (hx.symm.trans (congrArg Prod.fst (Shape.alloc_full hfull))) }
  rw [ha, if_neg h0, wp_bind, wp_change_opened, wp_bind]
  refine (insert_funct_cells (opened s _)).mono (fun inserted s' hs' => ?_) fun _ _ _ => trivial
  rcases hs' with ⟨rfl, hs'⟩ | ⟨rfl, hs'⟩
  · exact .inl hs'
  · refine .inr ⟨show -EINVAL ≠ 0 by decide, ⟨c, hexports⟩, ?_⟩
    rw [show (s.shm.arena.alloc .funct).1 = x from hx]
    exact hs'

/-- What `hal_exit` does to the cells. -/
theorem hal_exit_cells (h : Inv s L) (comp_id : Int) :
    Wp (hal_exit R comp_id) s (fun _ s' => ∀ c, s'.shm.cell c = s.shm.cell c ∨
      (Op.hal_exit comp_id).Clears s c) fun _ _ => True := by
  unfold hal_exit
  simp only [wp_bind, wp_get]
  refine .ite (fun _ c => .inl rfl) fun _ => .ite (fun _ c => .inl rfl) fun hd => ?_
  set m : Segment := { s.shm with mutex := true } with hm
  have hg : Good m L := h.locked
  rw [wp_bind, wp_open h.attached h.unlocked, wp_bind]
  rcases seek_cases hg.shape (k := .comp) (by decide) (fun x => (m.comp x).comp_id = comp_id) with
    ⟨prev, hseek, hderef, -⟩ | ⟨xs, x, ys, hs, hx0, hx, hxs, hseek, hderef⟩
  · rw [wp_walk_opened hseek, wp_bind, wp_look_opened, hderef, if_pos rfl, wp_bind, wp_close rfl]
    exact fun c => .inl rfl
  · have hfind : s.shm.halpr_find_comp_by_id comp_id = some x := by
      have hv : (view s.shm L).findComp comp_id = some (x, m.comp x) :=
        findComp_split hs (by simpa using hx) fun z hz => by simpa using hxs z hz
      rcases find_comp_cases h.good.shape comp_id with ⟨-, hv'⟩ | ⟨x', -, -, hf, hv', -⟩
      · exact absurd (hv.symm.trans hv') (by simp)
      · rw [hf]
        exact congrArg some (congrArg Prod.fst (Option.some.inj (hv'.symm.trans hv)))
    obtain ⟨m', L', e, -, -, -, -, hmx, -, -⟩ := free_comp_struct_eq hg h.idle hs
    rw [wp_walk_opened hseek, wp_bind, wp_look_opened, hderef, if_neg hx0, wp_bind,
      wp_change_opened, wp_bind, wp_walkTo_opened (by rw [e]; rfl), wp_bind, wp_close hmx]
    intro c
    rcases (Cleans.free_comp_struct hx0 e).cells c with hc | ⟨f, hf, rfl⟩
    · exact .inl hc
    · exact .inr ⟨hd, x, hx0, hfind, f, hf, rfl⟩

/-! ### The pins that come with a function or a thread -/

variable (R) in
/-- `create_thread_comp` gets as far as the pin of the thread `new`: the state then, and what
`hal_pin_new` is given. -/
inductive Outfits (s : State σ) (new : Nat) : State σ → CStr → HalType → Addr → Int → Prop
  | intro {comp_id : Int} {s₁ s₂ : State σ} :
      hal_init R (some (thread_comp_name (s.shm.thread new).name)) s = .ok comp_id s₁ →
      ¬ comp_id < 0 →
      hal_param_s32_new (rt_snprintf (HAL_NAME_LEN + 1) ((s.shm.thread new).name ++ dotTmax)) .rw .s32
        (s.hal_shmem_base + (new + THREAD_MAXTIME)) comp_id
        (({ s₁ with shm := s₁.shm.setThread new { s₁.shm.thread new with comp_id := comp_id } } :
          State σ).setData (s.hal_shmem_base + (new + THREAD_MAXTIME)) 0) = .ok 0 s₂ →
      ((s.shm.thread new).name ++ dotTime).length ≤ HAL_NAME_LEN →
      Outfits s new s₂ (rt_snprintf (HAL_NAME_LEN + 1) ((s.shm.thread new).name ++ dotTime)) .s32
        (s.hal_shmem_base + (new + THREAD_RUNTIME)) comp_id

/-! ### Events without pins -/

namespace Registry

variable {g : Registry} {base : Addr} {ev : Event}

theorem init_pinless {new : Nat} {old : Comp} {id : Int} {name : CStr}
    (h : ev ∈ (g.init base new old id name).2) : ev.Pinless base := by
  unfold Registry.init at h
  split_ifs at h
  all_goals first
    | exact absurd h List.not_mem_nil
    | exact List.mem_singleton.mp h ▸ (rfl : _ = base)

theorem export_funct_pinless {lock : UInt8} {new : Nat} {name : CStr} {funct arg : Addr}
    {uses_fp reentrant comp_id : Int}
    (h : ev ∈ (g.export_funct lock new name funct arg uses_fp reentrant comp_id).2) :
    ev.Pinless base := by
  unfold Registry.export_funct at h
  split at h
  · exact absurd h List.not_mem_nil
  split at h
  · exact absurd h List.not_mem_nil
  rcases hf : g.findComp comp_id with _ | ⟨c, comp⟩ <;> simp only [hf] at h
  · exact absurd h List.not_mem_nil
  · split_ifs at h
    all_goals first
      | exact absurd h List.not_mem_nil
      | exact List.mem_singleton.mp h ▸ trivial

theorem param_new_pinless {lock : UInt8} {new : Nat} {name : CStr} {type : HalType} {base' : Addr}
    {dir : ParamDir} {data_addr : Addr} {comp_id : Int}
    (h : ev ∈ (g.param_new base' lock new name type dir data_addr comp_id).2) :
    ev.Pinless base := by
  unfold Registry.param_new Registry.register at h
  rcases hf : g.findComp comp_id with _ | ⟨c, comp⟩ <;> simp only [hf] at h
  all_goals
    split_ifs at h
    all_goals first
      | exact absurd h List.not_mem_nil
      | exact List.mem_singleton.mp h ▸ trivial

theorem exit_pinless {state : HalState} {comp_id : Int} (h : ev ∈ (g.exit state comp_id).2) :
    ev.Pinless base := by
  unfold Registry.exit at h
  split_ifs at h
  · exact absurd h List.not_mem_nil
  split at h
  · exact absurd h List.not_mem_nil
  · rcases leave_cases h with ⟨y, rfl⟩ | ⟨y, rfl⟩ | rfl <;> trivial

end Registry

namespace Pointed

/-- An operation that refines one without pins and leaves the cells. -/
theorem of_refines {r : Int} {spec : Int × List Event} (h : Pointed s L) (hr : Refines s L spec r s')
    (hspec : ∀ ev ∈ spec.2, ev.Pinless s.hal_shmem_base) (hcell : Uncelled s s') :
    ∃ L', Pointed s' L' :=
  hr.2.imp fun _ hm => h.moved hm.1 hspec fun p _ => congrFun hcell p.2.data_ptr_addr

theorem hal_param_new (h : Pointed s L) (name : CStr) (type : HalType) (dir : ParamDir)
    (data_addr : Addr) (comp_id : Int) :
    Returns (hal_param_new name type dir data_addr comp_id) s fun _ s' => ∃ L', Pointed s' L' :=
  (hal_param_new_refines h.inv name type dir data_addr comp_id).with_eq.mono fun _ _ ⟨hrun, hr⟩ =>
    h.of_refines hr (fun _ => Registry.param_new_pinless)
      ((Uncelled.hal_param_new name type dir data_addr comp_id).of_ok hrun)

theorem hal_init (h : Pointed s L) (name : CStr) :
    Returns (hal_init R (some name)) s fun _ s' => ∃ L', Pointed s' L' :=
  (hal_init_spec R h.inv name).with_eq.mono fun _ _ ⟨hrun, _, ⟨L', hm⟩, _⟩ =>
    ⟨L', h.moved hm (fun _ => Registry.init_pinless) fun p _ =>
      congrFun ((Uncelled.hal_init (some name)).of_ok hrun) p.2.data_ptr_addr⟩

theorem hal_ready (h : Pointed s L) (comp_id : Int) :
    Returns (hal_ready comp_id) s fun _ s' => ∃ L', Pointed s' L' := by
  refine (hal_ready_refines h.inv comp_id).with_eq.mono fun _ _ ⟨hrun, hr⟩ =>
    h.of_refines hr (fun ev hev => ?_) ((Uncelled.hal_ready comp_id).of_ok hrun)
  unfold Registry.set at hev
  rcases hf : (view s.shm L).findComp comp_id with _ | ⟨x, c⟩ <;> simp only [hf] at hev
  · exact absurd hev List.not_mem_nil
  · split_ifs at hev
    · exact absurd hev List.not_mem_nil
    · obtain rfl := List.mem_singleton.mp hev
      exact h.based _ (List.mem_of_find?_eq_some hf)

/-- `hal_exit` clears functions of its component only. -/
theorem hal_exit (h : Pointed s L) {comp_id : Int}
    (hn : ∀ x, s.shm.Listed .pin x → ¬ (Op.hal_exit comp_id).Clears s (s.shm.pin x).data_ptr_addr) :
    Returns (hal_exit R comp_id) s fun _ s' => ∃ L', Pointed s' L' := by
  refine (hal_exit_spec R h.inv comp_id).with_eq.mono fun _ s' ⟨hrun, _, ⟨L', hm⟩, _⟩ =>
    ⟨L', h.moved hm (fun _ => Registry.exit_pinless) fun p hp => ?_⟩
  obtain ⟨hx, he⟩ := h.listed_pin hp
  rw [he]
  rcases (hal_exit_cells h.inv comp_id).of_ok hrun (s.shm.pin p.1).data_ptr_addr with hc | hc
  · exact hc
  · exact absurd hc (hn p.1 hx)

/-- The pin and the parameters of the function `new`. -/
theorem export_funct_pins (h : Pointed s L) {name : CStr} {new : Nat} {comp_id : Int}
    (hn : (name ++ dotTime).length ≤ HAL_NAME_LEN → ¬ Spoils s
      (rt_snprintf (HAL_NAME_LEN + 1) (name ++ dotTime)) .s32
      (s.hal_shmem_base + (new + FUNCT_RUNTIME)) comp_id) :
    Wp (export_funct_pins name new comp_id) s (fun _ s' => ∃ L', Pointed s' L')
      fun _ _ => True := by
  unfold Hal.export_funct_pins
  simp only [wp_bind, wp_get]
  refine (h.hal_pin_newf hn).with_eq.mono (fun r s₁ hpost => ?_) fun _ _ => id
  obtain ⟨hrun, L₁, h₁⟩ := hpost
  have hcell := ((hal_pin_newf_spec h.inv _ _ _ _).of_ok hrun).2
  refine .ite (fun _ => ⟨L₁, h₁⟩) fun hr0 => Returns.to_wp ?_
  have hcell' : s₁.shm.cell (new + FUNCT_RUNTIME) ≠ 0 := by
    have := hcell (Decidable.not_not.mp hr0)
    rwa [Nat.add_sub_cancel_left] at this
  simp only [returns_bind]
  rw [returns_storeThrough hcell', returns_setData]
  refine (((h₁.setData _ _).setData _ _).hal_param_new _ _ _ _ _).mono fun _ s₃ hpost => ?_
  obtain ⟨L₃, h₃⟩ := hpost
  rw [returns_setData]
  exact ((h₃.setData _ _).hal_param_new _ _ _ _ _).mono fun _ _ h₅ => h₅

/-- The first half of `hal_export_funct`. -/
theorem export_funct_new (h : Pointed s L) {name : CStr} (hn : ¬ name.length > HAL_NAME_LEN)
    (hl : ¬ s.shm.lock &&& HAL_LOCK_LOAD ≠ 0) {funct arg : Addr} {uses_fp reentrant comp_id : Int}
    (hclear : ∀ x, s.shm.Listed .pin x →
      ¬ (Op.hal_export_funct name funct arg uses_fp reentrant comp_id).Clears s
        (s.shm.pin x).data_ptr_addr) :
    Returns (export_funct_new name funct arg uses_fp reentrant comp_id) s fun _ s' =>
      s'.hal_shmem_base = s.hal_shmem_base ∧ ∃ L', Pointed s' L' := by
  refine (export_funct_new_refines h.inv hn hl funct arg uses_fp reentrant comp_id).with_eq.mono
    fun made s' ⟨hrun, hr, _⟩ => ?_
  obtain ⟨hcode, L', hm, -⟩ := hr
  refine ⟨hm.base, L', h.moved hm (fun _ => Registry.export_funct_pinless) fun p hp => ?_⟩
  obtain ⟨hx, he⟩ := h.listed_pin hp
  rcases (export_funct_new_cells h.inv hn hl funct arg uses_fp reentrant comp_id).of_ok hrun with
    hc | ⟨hfail, hexports, hc⟩
  · exact congrFun hc _
  · rw [hc, Function.update_of_ne]
    intro e
    obtain ⟨c, hexports⟩ := hexports
    exact hclear p.1 hx ⟨⟨c, hexports⟩, hexports.taken h.inv (hcode ▸ hfail), by rw [← he]; exact e⟩

/-- The component of a thread, with its parameter and its pin. -/
theorem create_thread_comp (h : Pointed s L) {new : Nat}
    (hn : ∀ {s' type data_ptr_addr comp_id name}, Outfits R s new s' name type data_ptr_addr comp_id →
      ¬ Spoils s' name type data_ptr_addr comp_id) :
    Wp (create_thread_comp R new) s (fun _ s' => ∃ L', Pointed s' L') fun _ _ => True := by
  unfold Hal.create_thread_comp
  simp only [wp_bind, wp_get]
  refine (h.hal_init (R := R) (thread_comp_name (s.shm.thread new).name)).with_eq.to_wp.mono
    (fun comp_id s₁ hpost => ?_) fun _ _ => id
  obtain ⟨hinit, L₁, h₁⟩ := hpost
  have h₂ : Pointed { s₁ with
      shm := s₁.shm.setThread new { s₁.shm.thread new with comp_id := comp_id } } L₁ :=
    h₁.setThread new rfl
  refine .ite (fun _ => ⟨L₁, h₂⟩) fun hid => ?_
  simp only [wp_bind, wp_change]
  refine ((h₂.setData _ _).hal_param_new _ _ _ _ _).with_eq.to_wp.mono (fun r s₃ hpost => ?_)
    fun _ _ => id
  obtain ⟨hparam, L₃, h₃⟩ := hpost
  have hbase : s₃.hal_shmem_base = s.hal_shmem_base := by
    obtain ⟨-, ⟨_, hm⟩, -⟩ := (hal_init_spec R h.inv _).of_ok hinit
    obtain ⟨-, _, hm', -⟩ := (hal_param_new_refines (h₂.setData _ _).inv _ _ _ _ _).of_ok hparam
    exact hm'.base.trans hm.base
  refine .ite (fun _ => ⟨L₃, h₃⟩) fun hr => ?_
  obtain rfl : r = 0 := Decidable.not_not.mp hr
  simp only [wp_bind]
  refine (h₃.hal_pin_newf fun hlen => hn (.intro hinit hid hparam hlen)).with_eq.mono
    (fun r s₄ hpost => ?_) fun _ _ => id
  obtain ⟨hpin, L₄, h₄⟩ := hpost
  have hcell := ((hal_pin_newf_spec h₃.inv _ _ _ _).of_ok hpin).2
  refine .ite (fun _ => ⟨L₄, h₄⟩) fun hr0 => Returns.to_wp ?_
  have hcell' : s₄.shm.cell (new + THREAD_RUNTIME) ≠ 0 := by
    have := hcell (Decidable.not_not.mp hr0)
    rwa [hbase, Nat.add_sub_cancel_left] at this
  simp only [returns_bind]
  rw [returns_storeThrough hcell']
  exact ((h₄.setData _ _).hal_ready comp_id).mono fun _ _ h₅ => h₅

end Pointed

/-! ### One operation -/

variable (R) in
/-- A call of `hal_pin_new` in the operation: the state it is made in, and what it is given. -/
inductive Op.Pins (s : State σ) : Op → State σ → CStr → HalType → Addr → Int → Prop
  | direct {name : CStr} {type : HalType} {data_ptr_addr : Addr} {comp_id : Int} :
      Op.Pins s (.hal_pin_new name type data_ptr_addr comp_id) s name type data_ptr_addr comp_id
  | funct {name : CStr} {funct arg : Addr} {uses_fp reentrant comp_id : Int} {new : Nat}
      {s₁ : State σ} : s.shm.lock &&& HAL_LOCK_LOAD = 0 → ¬ name.length > HAL_NAME_LEN →
      export_funct_new name funct arg uses_fp reentrant comp_id s = .ok (.ok new) s₁ →
      (name ++ dotTime).length ≤ HAL_NAME_LEN →
      Op.Pins s (.hal_export_funct name funct arg uses_fp reentrant comp_id) s₁
        (rt_snprintf (HAL_NAME_LEN + 1) (name ++ dotTime)) .s32
        (s.hal_shmem_base + (new + FUNCT_RUNTIME)) comp_id
  | thread {name : CStr} {period_nsec : Nat} {uses_fp priority : Int} {new : Nat} {s₁ s₂ : State σ}
      {pin : CStr} {type : HalType} {data_ptr_addr : Addr} {comp_id : Int} :
      Admits s name period_nsec →
      create_thread_task R name period_nsec uses_fp priority s = .ok (.ok new) s₁ →
      Outfits R s₁ new s₂ pin type data_ptr_addr comp_id →
      Op.Pins s (.hal_create_thread name period_nsec uses_fp priority) s₂ pin type data_ptr_addr
        comp_id

/-- The operations that register, and that take a component back. -/
def Op.Registers : Op → Prop
  | .hal_init _ => True
  | .hal_pin_new .. => True
  | .hal_export_funct .. => True
  | .hal_create_thread .. => True
  | .hal_exit _ => True
  | _ => False

variable (R) in
/-- The operation writes no cell of a listed pin: no `hal_pin_new` in it is given the name or the
cell of a pin, and no function that it frees holds such a cell. -/
structure Isolated (s : State σ) (op : Op) : Prop where
  registers : op.Registers
  pins : ∀ s₁ name type data_ptr_addr comp_id, op.Pins R s s₁ name type data_ptr_addr comp_id →
    ¬ Spoils s₁ name type data_ptr_addr comp_id
  cleared : ∀ x, s.shm.Listed .pin x → ¬ op.Clears s (s.shm.pin x).data_ptr_addr

namespace Pointed

theorem hal_export_funct (h : Pointed s L) {name : CStr} {funct arg : Addr}
    {uses_fp reentrant comp_id : Int}
    (hi : Isolated R s (.hal_export_funct name funct arg uses_fp reentrant comp_id)) :
    Wp (hal_export_funct name funct arg uses_fp reentrant comp_id) s
      (fun _ s' => ∃ L', Pointed s' L') fun _ _ => True := by
  unfold Hal.hal_export_funct
  simp only [wp_bind, wp_get]
  refine .ite (fun _ => ⟨L, h⟩) fun _ => .ite (fun _ => ⟨L, h⟩) fun hn => .ite (fun _ => ⟨L, h⟩)
    fun hl => ?_
  rw [wp_bind]
  refine (h.export_funct_new hn hl hi.cleared).with_eq.to_wp.mono (fun made s₁ hpost => ?_)
    fun _ _ => id
  obtain ⟨hrun, hbase, L₁, h₁⟩ := hpost
  cases made with
  | error e => exact ⟨L₁, h₁⟩
  | ok new =>
      refine h₁.export_funct_pins fun hlen => hi.pins _ _ _ _ _ ?_
      rw [hbase]
      exact .funct (Decidable.not_not.mp hl) hn hrun hlen

theorem hal_create_thread (h : Pointed s L) {name : CStr} {period_nsec : Nat}
    {uses_fp priority : Int}
    (hi : Isolated R s (.hal_create_thread name period_nsec uses_fp priority)) :
    Wp (hal_create_thread R name period_nsec uses_fp priority) s
      (fun _ s' => ∃ L', Pointed s' L') fun _ _ => True := by
  unfold Hal.hal_create_thread
  simp only [wp_bind, wp_get]
  refine .ite (fun _ => ⟨L, h⟩) fun _ => .ite (fun _ => ⟨L, h⟩) fun hp => .ite (fun _ => ⟨L, h⟩)
    fun hn => .ite (fun _ => ⟨L, h⟩) fun hl => ?_
  rw [wp_bind]
  refine (create_thread_task_spec R h.inv hn period_nsec uses_fp priority rfl).with_eq.to_wp.mono
    (fun made s₁ hpost => ?_) fun _ _ => id
  obtain ⟨hrun, _, ⟨L₁, hm⟩, _⟩ := hpost
  have h₁ : Pointed s₁ L₁ := by
    have hcell := (Uncelled.create_thread_task (R := R) name period_nsec uses_fp priority).of_ok hrun
    refine h.moved hm (fun ev hev => ?_) fun p _ => congrFun hcell p.2.data_ptr_addr
    unfold Making.events at hev
    split at hev
    · exact absurd hev List.not_mem_nil
    · exact List.mem_singleton.mp hev ▸ trivial
  cases made with
  | error e => exact ⟨L₁, h₁⟩
  | ok new =>
      exact h₁.create_thread_comp fun ho => hi.pins _ _ _ _ _ (.thread ⟨hp, hn, hl⟩ hrun ho)

end Pointed

/-- **One operation** that writes no cell in use. -/
theorem Isolated.pointed {op : Op} (hi : Isolated R s op) (h : Pointed s L) :
    Wp (op.run R) s (fun _ s' => ∃ L', Pointed s' L') fun _ _ => True := by
  cases op with
  | hal_init name =>
      rcases name with _ | name
      · exact wp_bind.mpr (Returns.to_wp ((hal_init_none R s).mpr ⟨L, h⟩))
      · exact wp_bind.mpr (h.hal_init name).to_wp
  | hal_exit comp_id => exact wp_bind.mpr (h.hal_exit hi.cleared).to_wp
  | hal_export_funct name funct arg uses_fp reentrant comp_id =>
      exact wp_bind.mpr (h.hal_export_funct hi)
  | hal_create_thread name period_nsec uses_fp priority =>
      exact wp_bind.mpr (h.hal_create_thread hi)
  | hal_pin_new name type data_ptr_addr comp_id =>
      exact wp_bind.mpr
        ((h.hal_pin_new (hi.pins _ _ _ _ _ .direct)).mono (fun _ _ hs => hs.1) fun _ _ => id)
  | _ => exact hi.registers.elim

/-! ### Runs -/

/-- `sizeof (hal_data_u)`. -/
def HAL_DATA_U_SIZE : Nat := 8

/-- The data pointer of a pin. -/
def data_ptr (s : State σ) (pin : Nat) : Addr := s.shm.cell (s.shm.pin pin).data_ptr_addr

/-- Every listed pin is reached through its own cell, and different pins store in different
places. -/
structure Stored (s : State σ) : Prop where
  own : ∀ x, s.shm.Listed .pin x → data_ptr s x = s.hal_shmem_base + (x + PIN_DUMMYSIG)
  apart : ∀ x y, s.shm.Listed .pin x → s.shm.Listed .pin y → x ≠ y →
    data_ptr s x + HAL_DATA_U_SIZE ≤ data_ptr s y ∨ data_ptr s y + HAL_DATA_U_SIZE ≤ data_ptr s x

theorem Pointed.stored (h : Pointed s L) : Stored s := by
  have hown : ∀ x, s.shm.Listed .pin x → data_ptr s x = s.hal_shmem_base + (x + PIN_DUMMYSIG) :=
    fun x hx => h.points (x, s.shm.pin x) (mem_tab.mpr ⟨h.inv.good.shape.listed.mp hx, rfl⟩)
  refine ⟨hown, fun x y hx hy hxy => ?_⟩
  rw [hown x hx, hown y hy]
  have hcarved : ∀ z, s.shm.Listed .pin z → z ∈ s.shm.arena.carved .pin := fun z hz =>
    h.inv.good.shape.carved_act (by decide) (h.inv.good.shape.listed.mp hz)
  have hapart := h.inv.good.shape.mem.apart .pin .pin x y (hcarved x hx) (hcarved y hy) (.inr hxy)
  have hstep : ∀ a b : Nat, a + Kind.pin.size ≤ b →
      s.hal_shmem_base + (a + PIN_DUMMYSIG) + HAL_DATA_U_SIZE ≤
        s.hal_shmem_base + (b + PIN_DUMMYSIG) := fun a b hab => by
    unfold HAL_DATA_U_SIZE
    simp only [Kind.size] at hab
    show (_ : Nat) ≤ _
    omega
  exact hapart.imp (hstep x y) (hstep y x)

theorem Runs.pointed {s₀ : State σ} (hr : Runs R (Isolated R) s₀ s)
    (h : ∃ L, Pointed s₀ L) : ∃ L, Pointed s L := by
  induction hr with
  | start => exact h
  | op op _ _ hi hrun ih =>
      obtain ⟨L, h₁⟩ := ih
      exact (hi.pointed h₁).of_ok hrun
  | cycle code t _ ht hrun ih =>
      obtain ⟨L, h₁⟩ := ih
      obtain ⟨cs, data, rt, rfl⟩ := cycle_ran h₁.inv (h₁.inv.good.shape.listed.mp ht) hrun
      exact ⟨L, h₁.inv.ran cs data rt, h₁.points, h₁.based⟩

/-- **Pins are isolated** in every run of registrations and exits that write no cell in use: every
pin is reached through its own cell, and a `hal_pin_new` that fails leaves every cell. -/
theorem pins_isolated {s₀ s₁ : State σ} (h : Boots R s₀ s₁) (hr : Runs R (Isolated R) s₁ s) :
    Stored s ∧ ∀ name type data_ptr_addr comp_id r s',
      Isolated R s (.hal_pin_new name type data_ptr_addr comp_id) →
      hal_pin_new name type data_ptr_addr comp_id s = .ok r s' → r ≠ 0 → Uncelled s s' := by
  have hstart : Pointed s₁ .empty := ⟨h.inv, by simp [view, Lists.empty, tab], by
    simp [view, Lists.empty, tab]⟩
  obtain ⟨L, hp⟩ := hr.pointed ⟨_, hstart⟩
  refine ⟨hp.stored, fun name type data_ptr_addr comp_id r s' hi hrun hr => ?_⟩
  exact ((hp.hal_pin_new (hi.pins _ _ _ _ _ .direct)).of_ok hrun).2 hr

/-! ### Runs that compute -/

/-- The pin is the only one. -/
theorem pinned_listed {x : Nat} : (played (rtapi serving) pinning started).shm.Listed .pin x ↔
    x = ((played (rtapi serving) pinning started).shm.arena.pool .pin).list_ptr :=
  Segment.listed_one (by decide +kernel) (by decide +kernel)

theorem Isolated.hal_init (s : State σ) (name : Option CStr) : Isolated R s (.hal_init name) :=
  ⟨trivial, (fun _ _ _ _ _ h => nomatch h), fun _ _ h => h.elim⟩

theorem Isolated.hal_pin_new {name : CStr} {type : HalType} {data_ptr_addr : Addr} {comp_id : Int}
    (h : ∀ x, s.shm.Listed .pin x → (s.shm.pin x).name ≠ rt_snprintf (HAL_NAME_LEN + 1) name ∧
      (s.shm.pin x).data_ptr_addr ≠ data_ptr_addr - s.hal_shmem_base) :
    Isolated R s (.hal_pin_new name type data_ptr_addr comp_id) := by
  refine ⟨trivial, fun s₁ _ _ _ _ hp => ?_, fun _ _ h => h.elim⟩
  cases hp
  rintro ⟨-, x, hx, e | e⟩
  · exact (h x hx).1 e
  · exact (h x hx).2 e

theorem pins_isolated_sample : Stored (played (rtapi serving)
    (pinning ++ [.hal_pin_new (lit ['q']) .s32 69640 2]) started) := by
  have hplay : Playable (rtapi serving) (Isolated (rtapi serving))
      (pinning ++ [.hal_pin_new (lit ['q']) .s32 69640 2]) started := by
    refine ⟨trivial, .hal_init _ _, by decide +kernel, trivial, .hal_pin_new fun x hx => ?_,
      by decide +kernel, trivial, .hal_pin_new fun x hx => ?_, by decide +kernel, trivial⟩
    · exact absurd hx (Segment.not_listed (by decide +kernel))
    · obtain rfl := pinned_listed.mp hx
      exact ⟨by decide +kernel, by decide +kernel⟩
  exact (pins_isolated started_starts.boots (hplay.runs .start)).1

/-- `p` is registered again, in its own cell: the call is refused, and the pin is no longer reached
through the cell. -/
theorem refused_pin_spoils :
    let p : Op := .hal_pin_new (lit ['p']) .s32 69632 2
    let s := played (rtapi serving) pinning started
    let s' := played (rtapi serving) (pinning ++ [p]) started
    Runs (rtapi serving) (fun _ op => op.Registers) started s' ∧
      result (hal_pin_new (lit ['p']) .s32 69632 2) s = some (-EINVAL) ∧
      ¬ Uncelled s s' ∧ ¬ Stored s' := by
  refine ⟨Playable.runs ⟨trivial, trivial, by decide +kernel, trivial, trivial, by decide +kernel,
    trivial, trivial, by decide +kernel, trivial⟩ .start, by decide +kernel, fun h => ?_, fun h => ?_⟩
  · exact absurd (congrFun h 4096) (by decide +kernel)
  · set s' := played (rtapi serving) (pinning ++ [.hal_pin_new (lit ['p']) .s32 69632 2]) started
    have hlisted : s'.shm.Listed .pin (s'.shm.arena.pool .pin).list_ptr :=
      (Segment.listed_one (by decide +kernel) (by decide +kernel)).mpr rfl
    exact absurd (h.own _ hlisted) (by decide +kernel)

end RTS.Hal

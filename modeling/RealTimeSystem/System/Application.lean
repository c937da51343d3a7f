import RealTimeSystem.System.Guarantees
import RealTimeSystem.System.Startup

/-!
# System — the example task on the catalog

`task_thread_main` as a program of the catalog, and what it leaves when it returns `0`.

* **`task_thread_main_tracks`**: what it does in memory, it does on the catalog.
* **`task_thread_main_wired`**: a start that succeeds leaves the component, ready, with its seven
  pins and two parameters, and the thread, which calls the command handler and then the controller.
* **`task_thread_main_once`**: no second start succeeds.
-/

namespace RTS.Hal

open RTS.Support

/-! ### What comes to a registry -/

namespace Registry

variable {g g' g'' : Registry} {comp_id : Int} {x : Nat}

/-- Pins and parameters come, and nothing else changes. -/
structure Furnishes (g g' : Registry) : Prop where
  comps : g'.comps = g.comps
  threads : g'.threads = g.threads
  functs : g'.functs = g.functs
  pins : g.pins ⊆ g'.pins
  params : g.params ⊆ g'.params

theorem Furnishes.refl : g.Furnishes g := ⟨rfl, rfl, rfl, fun _ => id, fun _ => id⟩

theorem Furnishes.trans (h : g.Furnishes g') (h' : g'.Furnishes g'') : g.Furnishes g'' where
  comps := h'.comps.trans h.comps
  threads := h'.threads.trans h.threads
  functs := h'.functs.trans h.functs
  pins := fun _ hp => h'.pins (h.pins hp)
  params := fun _ hp => h'.params (h.params hp)

/-- Who registers is a matter of the components. -/
theorem registers_congr (h : g'.comps = g.comps) :
    g'.Registers comp_id x ↔ g.Registers comp_id x := by
  unfold Registers findComp
  rw [h]

theorem Registers.unique {y : Nat} (h : g.Registers comp_id x) (h' : g.Registers comp_id y) :
    x = y := by
  obtain ⟨c, hc, -⟩ := h
  obtain ⟨c', hc', -⟩ := h'
  exact (Prod.mk.inj (Option.some.inj (hc.symm.trans hc'))).1

/-- The component `x` has a pin. -/
def HasPin (g : Registry) (x : Nat) (name : CStr) (type : HalType) : Prop :=
  ∃ q ∈ g.pins, q.2.name = name ∧ q.2.type = type ∧ q.2.owner_ptr = x

/-- The component `x` has a parameter. -/
def HasParam (g : Registry) (x : Nat) (name : CStr) : Prop :=
  ∃ q ∈ g.params, q.2.name = name ∧ q.2.owner_ptr = x

/-- A pin comes, when it is granted. -/
theorem Makes.pin {r : Int × List Event} {name : CStr} {type : HalType}
    (h : Makes r (g.PinComes comp_id name type)) : g.Furnishes (g.applyAll r.2) ∧
      (r.1 = 0 → name ∉ g.pinNames ∧
        ∃ x, g.Registers comp_id x ∧ (g.applyAll r.2).HasPin x name type) := by
  refine ⟨?_, fun hr => ⟨(h.gains hr).1, ?_⟩⟩
  · rcases h with ⟨-, he⟩ | ⟨-, ev, he, _, y, p, -, -, rfl, -⟩
    · rw [he]
      exact .refl
    · rw [he]
      exact ⟨rfl, rfl, rfl, fun q hq => mem_enter.mpr (.inr hq), fun _ => id⟩
  · rcases h with ⟨hneg, -⟩ | ⟨-, ev, he, x, y, p, hx, -, rfl, hp⟩
    · exact absurd hr hneg.ne
    · rw [he]
      exact ⟨x, hx, (y, p), mem_enter.mpr (.inl rfl), hp⟩

theorem Makes.param {r : Int × List Event} {name : CStr}
    (h : Makes r (g.ParamComes comp_id name)) : g.Furnishes (g.applyAll r.2) ∧
      (r.1 = 0 → ∃ x, g.Registers comp_id x ∧ (g.applyAll r.2).HasParam x name) := by
  refine ⟨?_, fun hr => ?_⟩
  · rcases h with ⟨-, he⟩ | ⟨-, ev, he, _, y, p, -, rfl, -⟩
    · rw [he]
      exact .refl
    · rw [he]
      exact ⟨rfl, rfl, rfl, fun _ => id, fun q hq => mem_enter.mpr (.inr hq)⟩
  · rcases h with ⟨hneg, -⟩ | ⟨-, ev, he, x, y, p, hx, rfl, hp⟩
    · exact absurd hr hneg.ne
    · rw [he]
      exact ⟨x, hx, (y, p), mem_enter.mpr (.inl rfl), hp⟩

/-- The function `f` of the component `x`, the only one of its name. -/
def HasFunct (g : Registry) (x f : Nat) (name : CStr) (funct : Addr) (users : Int) : Prop :=
  ∃ r : Funct, (f, r) ∈ g.functs ∧ (r.name = name ∧ r.funct = funct ∧ r.owner_ptr = x ∧
    r.users = users) ∧ ∀ p ∈ g.functs, p.2.name = name → p = (f, r)

/-- A function comes, and pins and parameters. -/
structure Exports (g g' : Registry) (x f : Nat) (name : CStr) (funct : Addr) : Prop where
  comps : g'.comps = g.comps
  threads : g'.threads = g.threads
  pins : g.pins ⊆ g'.pins
  params : g.params ⊆ g'.params
  here : g'.HasFunct x f name funct 0
  others : ∀ y k other code users, other ≠ name → g.HasFunct y k other code users →
    g'.HasFunct y k other code users

theorem Exports.furnished {f : Nat} {name : CStr} {funct : Addr} (h : g.Exports g' x f name funct)
    (h' : g'.Furnishes g'') : g.Exports g'' x f name funct where
  comps := h'.comps.trans h.comps
  threads := h'.threads.trans h.threads
  pins := fun _ hp => h'.pins (h.pins hp)
  params := fun _ hp => h'.params (h.params hp)
  here := by
    unfold HasFunct
    rw [h'.functs]
    exact h.here
  others := fun y k other code users hne hk => by
    unfold HasFunct
    rw [h'.functs]
    exact h.others y k other code users hne hk

theorem Makes.funct {r : Int × List Event} {f : Nat} {name : CStr} {funct : Addr}
    (h : Makes r (g.FunctComes f comp_id name funct)) : r.1 < 0 ∨ r.1 = 0 ∧ f ≠ 0 ∧
      ∃ x, g.Registers comp_id x ∧ g.Exports (g.applyAll r.2) x f name funct := by
  rcases h with ⟨hneg, -⟩ | ⟨hr, ev, he, x, rec, hx, h₀, hfree, rfl, hname, hfunct, howner, husers⟩
  · exact .inl hneg
  rw [he]
  have hmem : ∀ p, p ∈ (g.applyAll [.addFunct f rec]).functs ↔ p = (f, rec) ∨ p ∈ g.functs :=
    fun p => mem_enter
  have hhere : (f, rec) ∈ (g.applyAll [.addFunct f rec]).functs := (hmem _).mpr (.inl rfl)
  refine .inr ⟨hr, h₀, x, hx, rfl, rfl, fun _ => id, fun _ => id, ?_, ?_⟩
  · refine ⟨rec, hhere, ⟨hname, hfunct, howner, husers⟩, fun p hp hpn => ?_⟩
    exact ((hmem p).mp hp).resolve_right fun hp => hfree p hp hpn
  · rintro y k other code users hne ⟨rec', hk, hrec, honly⟩
    refine ⟨rec', (hmem _).mpr (.inr hk), hrec, fun p hp hpn => ?_⟩
    rcases (hmem p).mp hp with rfl | hp
    · exact absurd (hpn.symm.trans hname) hne
    · exact honly p hp hpn

/-- A schedule gets an entry, and its function a user. -/
theorem HasFunct.schedule {f k : Nat} {name : CStr} {funct : Addr} {users : Int} {t i e : Nat}
    {r : Entry} (h : g.HasFunct x k name funct users) (hr : r.funct_ptr = f) :
    (g.apply (.schedule t i e r)).HasFunct x k name funct (if k = f then users + 1 else users) := by
  obtain ⟨rec, hmem, ⟨hname, hfunct, howner, husers⟩, honly⟩ := h
  subst hr
  by_cases hk : k = r.funct_ptr
  · rw [if_pos hk]
    refine ⟨{ rec with users := rec.users + 1 }, List.mem_map.mpr ⟨_, hmem, if_pos hk⟩,
      ⟨hname, hfunct, howner, congrArg (· + 1) husers⟩, fun q hq hqn => ?_⟩
    obtain ⟨p, hp, rfl⟩ := List.mem_map.mp hq
    obtain rfl := honly p hp (by split_ifs at hqn <;> exact hqn)
    exact if_pos hk
  · rw [if_neg hk]
    refine ⟨rec, List.mem_map.mpr ⟨_, hmem, if_neg hk⟩, ⟨hname, hfunct, howner, husers⟩,
      fun q hq hqn => ?_⟩
    obtain ⟨p, hp, rfl⟩ := List.mem_map.mp hq
    obtain rfl := honly p hp (by split_ifs at hqn <;> exact hqn)
    exact if_neg hk

end Registry

namespace Catalog

variable {c c' : Catalog} {comp_id r : Int} {name : CStr}

theorem hal_pin_newf_result {type : HalType} {data_ptr_addr : Addr}
    (h : hal_pin_newf type data_ptr_addr comp_id name c r c') : c'.lock = c.lock ∧
      c.reg.Furnishes c'.reg ∧ (r = 0 → name ∉ c.reg.pinNames ∧
        ∃ x, c.reg.Registers comp_id x ∧ c'.reg.HasPin x name type) := by
  obtain ⟨_, _, ⟨-, rfl⟩, rfl, rfl⟩ := h
  exact ⟨rfl, Registry.pin_newf_makes.pin⟩

theorem hal_param_new_result {type : HalType} {dir : ParamDir} {data_addr : Addr}
    (h : hal_param_new name type dir data_addr comp_id c r c') : c'.lock = c.lock ∧
      c.reg.Furnishes c'.reg ∧
        (r = 0 → ∃ x, c.reg.Registers comp_id x ∧ c'.reg.HasParam x name) := by
  obtain ⟨_, _, ⟨-, rfl⟩, rfl, rfl⟩ := h
  exact ⟨rfl, Registry.param_new_makes.param⟩

theorem export_funct_pins_result {new : Nat} (h : export_funct_pins name new comp_id c r c') :
    c'.lock = c.lock ∧ c.reg.Furnishes c'.reg := by
  obtain ⟨_, _, ⟨rfl, rfl⟩, r₁, c₁, hpin, h⟩ := h
  obtain ⟨hl₁, hf₁, -⟩ := hal_pin_newf_result hpin
  split_ifs at h
  · obtain ⟨-, rfl⟩ := h
    exact ⟨hl₁, hf₁⟩
  · obtain ⟨_, c₂, hmax, _, c₃, hincreased, -, rfl⟩ := h
    obtain ⟨hl₂, hf₂, -⟩ := hal_param_new_result hmax
    obtain ⟨hl₃, hf₃, -⟩ := hal_param_new_result hincreased
    exact ⟨(hl₃.trans hl₂).trans hl₁, (hf₁.trans hf₂).trans hf₃⟩

theorem hal_export_funct_result {funct arg : Addr} {uses_fp reentrant : Int} (hr : 0 ≤ r)
    (h : hal_export_funct name funct arg uses_fp reentrant comp_id c r c') : c'.lock = c.lock ∧
      ∃ x f, f ∉ keys c.reg.functs ∧ c.reg.Registers comp_id x ∧
        c.reg.Exports c'.reg x f name funct := by
  obtain ⟨new, _, ⟨hnew, rfl⟩, r₁, _, ⟨hr₁, rfl⟩, h⟩ := h
  rcases Registry.export_funct_makes.funct with hneg | ⟨h₀, hne, x, hx, hexports⟩
  · have hneg : r₁ < 0 := hr₁ ▸ hneg
    rw [if_pos hneg.ne] at h
    exact absurd h.1 (by omega)
  · rw [if_neg (not_not_intro (hr₁.trans h₀))] at h
    obtain ⟨hl, hf⟩ := export_funct_pins_result h
    exact ⟨hl, x, new, hnew.resolve_left hne, hx, hexports.furnished hf⟩

/-- A component that was made is the one of its id, and not ready. -/
theorem hal_init_result (hr : 0 ≤ r) (h : hal_init name c r c') : c'.lock = c.lock ∧
    c'.reg.threads = c.reg.threads ∧ c'.reg.functs = c.reg.functs ∧ c'.reg.pins = c.reg.pins ∧
      c'.reg.params = c.reg.params ∧ ∃ x comp, x ∉ keys c.reg.comps ∧
        c'.reg.comps = (x, comp) :: c.reg.comps ∧ comp.comp_id = r ∧ comp.ready = 0 := by
  obtain ⟨id, _, ⟨-, rfl⟩, new, _, ⟨hnew, rfl⟩, old, _, ⟨-, rfl⟩, hcode, rfl⟩ := h
  refine ⟨rfl, ?_⟩
  have refused : ∀ e, e < 0 → r ≠ e := fun e he h => by omega
  unfold Registry.init at hcode ⊢
  dsimp only at hcode ⊢
  split_ifs at hcode ⊢ with h₁ h₂ h₃ h₄
  · exact absurd hcode (refused _ (by decide))
  · exact absurd hcode (refused _ (by decide))
  · exact absurd hcode (refused _ (by decide))
  · exact absurd hcode (refused _ (by decide))
  · exact ⟨rfl, rfl, rfl, rfl, new, _, hnew.resolve_left h₄, rfl, hcode.symm, rfl⟩

/-- The first component becomes ready. -/
theorem hal_ready_first {y : Nat} {comp : Comp} {rest : List (Nat × Comp)}
    (hc : c.reg.comps = (y, comp) :: rest) (hid : comp.comp_id = comp_id) (hready : comp.ready = 0)
    (hy : y ∉ keys rest) (h : hal_ready comp_id c r c') :
    c' = { c with reg := { c.reg with comps := (y, { comp with ready := 1 }) :: rest } } := by
  have hf : c.reg.findComp comp_id = some (y, comp) := by
    unfold Registry.findComp
    rw [hc]
    exact List.find?_cons_of_pos (decide_eq_true hid)
  obtain ⟨-, rfl⟩ := h
  have hset : (c.reg.set comp_id fun comp => if comp.ready > 0 then none else
      some { comp with ready := 1 }).2 = [.setComp y { comp with ready := 1 }] := by
    unfold Registry.set
    rw [hf]
    simp [hready]
  have hmap : (rest.map fun p => if p.1 = y then (y, { comp with ready := 1 }) else p) = rest := by
    refine (List.map_congr_left fun p hp => ?_).trans (List.map_id _)
    have hne : p.1 ≠ y := fun e => hy (List.mem_map.mpr ⟨p, hp, e⟩)
    exact if_neg hne
  simp only [record, hset, Registry.applyAll_cons, Registry.applyAll_nil, Registry.apply, hc,
    List.map_cons, if_true, hmap]

/-- A component that is set keeps its place. -/
theorem findComp_setComp {g : Registry} {x : Nat} {comp comp' : Comp}
    (h : g.findComp comp_id = some (x, comp)) (hid : comp'.comp_id = comp_id) :
    (g.apply (.setComp x comp')).findComp comp_id = some (x, comp') := by
  unfold Registry.findComp at h ⊢
  show (g.comps.map _).find? _ = _
  generalize g.comps = comps at h ⊢
  induction comps with
  | nil => cases h
  | cons q qs ih =>
      rw [List.map_cons]
      by_cases hx : q.1 = x
      · rw [if_pos hx]
        exact List.find?_cons_of_pos (decide_eq_true hid)
      · rw [if_neg hx]
        rw [List.find?_cons] at h ⊢
        split at h
        · exact absurd (congrArg Prod.fst (Option.some.inj h)) hx
        · exact ih h

/-- The component that registers becomes ready. -/
theorem hal_ready_registers {x : Nat} (hx : c.reg.Registers comp_id x)
    (h : hal_ready comp_id c r c') :
    ∃ comp, c'.reg.findComp comp_id = some (x, comp) ∧ comp.ready ≠ 0 ∧
      c'.reg = { c.reg with comps := c'.reg.comps } := by
  obtain ⟨comp, hfind, hready⟩ := hx
  obtain ⟨-, rfl⟩ := h
  have hset : (c.reg.set comp_id fun comp => if comp.ready > 0 then none else
      some { comp with ready := 1 }).2 = [.setComp x { comp with ready := 1 }] := by
    unfold Registry.set
    rw [hfind]
    simp [hready]
  unfold record
  rw [hset]
  refine ⟨{ comp with ready := 1 }, findComp_setComp hfind ?_, Int.one_ne_zero, rfl⟩
  exact of_decide_eq_true
    (List.find?_some (p := fun q : Nat × Comp => decide (q.2.comp_id = comp_id)) hfind)

/-- A thread that was made heads the list, and its component is ready. -/
structure ThreadMade (g g' : Registry) (t : Nat) (th : Thread) : Prop where
  comps : ∃ y comp, g'.comps = (y, comp) :: g.comps ∧ comp.ready ≠ 0
  functs : g'.functs = g.functs
  threads : g'.threads = ⟨t, th, []⟩ :: g.threads
  fresh : t ∉ g.threads.map Slot.off
  pins : g.pins ⊆ g'.pins
  params : g.params ⊆ g'.params

theorem create_thread_comp_result {new : Nat} {th : Thread} {g : Registry} (hr : 0 ≤ r)
    (hg : c.reg = g.apply (.addThread new th)) (hnew : new ∉ g.threads.map Slot.off)
    (h : create_thread_comp new th c r c') : c'.lock = c.lock ∧
      ThreadMade g c'.reg new { th with comp_id := r } := by
  obtain ⟨c, _, ⟨rfl, rfl⟩, id, c₁, hinit, ⟨⟩, c₂, rfl, h⟩ := h
  have refused : ∀ e, e < 0 → r ≠ e := fun e he h => by omega
  split_ifs at h with hid
  · exact absurd h.1 (refused _ (by decide))
  obtain ⟨r₁, c₃, hparam, h⟩ := h
  split_ifs at h
  · exact absurd h.1 (refused _ (by decide))
  obtain ⟨r₂, c₄, hpin, h⟩ := h
  split_ifs at h
  · exact absurd h.1 (refused _ (by decide))
  obtain ⟨_, c₅, hready, rfl, rfl⟩ := h
  obtain ⟨hl, ht, hf, hp, hpa, y, comp, hy, hc, rfl, hready₀⟩ := hal_init_result (by omega) hinit
  obtain ⟨hl₁, hf₁, -⟩ := hal_param_new_result hparam
  obtain ⟨hl₂, hf₂, -⟩ := hal_pin_newf_result hpin
  have hf₁₂ := hf₁.trans hf₂
  rw [hg] at hy hc ht hf hp hpa
  obtain rfl := hal_ready_first (hf₁₂.comps.trans hc) rfl hready₀ hy hready
  have hthreads : (c₁.record [.setThread new { th with comp_id := comp.comp_id }]).reg.threads =
      ⟨new, { th with comp_id := comp.comp_id }, []⟩ :: g.threads := by
    show c₁.reg.threads.map _ = _
    rw [ht]
    show (if _ then _ else _) :: g.threads.map _ = _
    rw [if_pos rfl]
    refine congrArg _ ((List.map_congr_left fun u hu => ?_).trans (List.map_id _))
    have hne : u.off ≠ new := fun e => hnew (List.mem_map.mpr ⟨u, hu, e⟩)
    exact if_neg hne
  exact ⟨(hl₂.trans hl₁).trans hl, ⟨y, { comp with ready := 1 }, rfl, Int.one_ne_zero⟩,
    hf₁₂.functs.trans hf, hf₁₂.threads.trans hthreads, hnew,
    fun q hq => hf₁₂.pins (show q ∈ c₁.reg.pins from hp ▸ hq),
    fun q hq => hf₁₂.params (show q ∈ c₁.reg.params from hpa ▸ hq)⟩

theorem hal_create_thread_result {period_nsec : Nat} {uses_fp priority : Int} (hr : 0 ≤ r)
    (h : hal_create_thread name period_nsec uses_fp priority c r c') :
    c.lock &&& HAL_LOCK_CONFIG = 0 ∧ c'.lock = c.lock ∧ ∃ t th, ThreadMade c.reg c'.reg t th ∧
      th.name = name ∧ th.uses_fp = uses_fp ∧ th.period = toInt64 period_nsec ∧
        th.priority = priority := by
  have refused : ∀ e, e < 0 → r ≠ e := fun e he h => by omega
  obtain ⟨c, _, ⟨rfl, rfl⟩, h⟩ := h
  split_ifs at h with h₁ h₂ hlock h₄
  · exact absurd h.1 (refused _ (by decide))
  · exact absurd h.1 (refused _ (by decide))
  · exact absurd h.1 (refused _ (by decide))
  · exact absurd h.1 (refused _ (by decide))
  obtain ⟨new, _, ⟨hnew, rfl⟩, h⟩ := h
  split_ifs at h with h₅
  · exact absurd h.1 (refused _ (by decide))
  obtain ⟨made, _, ⟨hmade, rfl⟩, h⟩ := h
  rcases made with _ | th
  · exact absurd h.1 (refused _ (by decide))
  · obtain ⟨⟨⟩, _, rfl, h⟩ := h
    obtain ⟨hl, hthread⟩ := create_thread_comp_result hr rfl (hnew.resolve_left h₅) h
    exact ⟨Decidable.not_not.mp hlock, hl, new, _, hthread, hmade th rfl⟩

/-- A function that nothing stops is put into the schedule of the first thread. -/
theorem hal_add_funct_result {x f t : Nat} {funct : Addr} {th : Thread} {es : List (Nat × Entry)}
    {rest : List Slot} {i : Nat} {p : Int} (hlock : c.lock &&& HAL_LOCK_CONFIG = 0)
    (hf : c.reg.HasFunct x f name funct 0) (ht : c.reg.threads = ⟨t, th, es⟩ :: rest)
    (hfp : th.uses_fp ≠ 0) (hfresh : t ∉ rest.map Slot.off)
    (hi : Registry.position es.length p = some i)
    (h : hal_add_funct_to_thread (some name) (some th.name) p c r c') :
    (c'.lock = c.lock ∧ c'.reg.comps = c.reg.comps ∧ c'.reg.pins = c.reg.pins ∧
      c'.reg.params = c.reg.params) ∧
      (∀ y k other code users, c.reg.HasFunct y k other code users →
        c'.reg.HasFunct y k other code (if k = f then users + 1 else users)) ∧
      ∃ e : Nat × Entry, e.2.funct_ptr = f ∧
        c'.reg.threads = ⟨t, th, es.take i ++ e :: es.drop i⟩ :: rest := by
  obtain ⟨new, c, ⟨-, rfl⟩, -, rfl⟩ := h
  obtain ⟨fr, hmem, ⟨hname, hfunct, howner, husers⟩, honly⟩ := hf
  have hfind : c.reg.findFunct name = some (f, fr) := by
    rcases hf : c.reg.findFunct name with _ | q
    · have := List.find?_eq_none.mp hf (f, fr) hmem
      exact absurd (decide_eq_true hname) this
    · have hq := List.find?_some hf
      rw [honly q (List.mem_of_find?_eq_some hf) (of_decide_eq_true hq)]
  have hthread : c.reg.findThread th.name = some ⟨t, th, es⟩ := by
    unfold Registry.findThread
    rw [ht]
    exact List.find?_cons_of_pos (decide_eq_true rfl)
  have hadd : (c.reg.add_funct c.lock new (some name) (some th.name) p).2 =
      [.schedule t i new { funct_ptr := f, arg := fr.arg, funct := fr.funct }] := by
    have husers' : ¬ (fr.users > 0 ∧ fr.reentrant = 0) := fun h => by omega
    have hfp' : ¬ (fr.uses_fp ≠ 0 ∧ th.uses_fp = 0) := fun h => hfp h.2
    simp only [Registry.add_funct, hlock, ne_eq, not_true, if_false, Option.bind_some, hfind,
      hthread, husers', hfp', hi]
  unfold record
  rw [hadd]
  let entry : Nat × Entry := (new, { funct_ptr := f, arg := fr.arg, funct := fr.funct })
  refine ⟨⟨rfl, rfl, rfl, rfl⟩, fun y k other code users hk => hk.schedule rfl, entry, rfl, ?_⟩
  show reschedule t (fun es => es.take i ++ entry :: es.drop i) c.reg.threads = _
  rw [ht]
  have hothers : ∀ u ∈ ([] : List Slot) ++ rest, u.off ≠ (⟨t, th, es⟩ : Slot).off :=
    fun u hu e => hfresh (List.mem_map.mpr ⟨u, hu, e⟩)
  exact reschedule_split hothers

end Catalog

end RTS.Hal

namespace RTS.ExampleTask

open RTS.Support RTS.Hal RTS.Uspace

/-! ### The task on the catalog -/

namespace Abstract

/-- The pins, up to the first that is refused. -/
def pin_new (taskHalData : Addr) (mot_comp_id : Int) : List NewPin → Spec Catalog Int
  | [] => return 0
  | p :: ps => do
      let r ← Catalog.hal_pin_newf p.type (taskHalData + p.field) mot_comp_id p.name
      if r ≠ 0 then
        return -1
      else
        pin_new taskHalData mot_comp_id ps

/-- In a block of its own, when there is one. -/
def init_hal_param (mot_comp_id : Int) : Spec Catalog Int := do
  let block ← .guess fun _ (_ : Option Addr) => True
  match block with
  | none => return -1
  | some taskHalData =>
      let r ← pin_new taskHalData mot_comp_id hal_pins
      if r ≠ 0 then
        return -1
      else
        let r ← Catalog.hal_param_new max_velocity_name .s32 .rw (taskHalData + MAX_VELOCITY)
          mot_comp_id
        if r ≠ 0 then
          return -1
        else
          let r ← Catalog.hal_param_new max_accel_name .s32 .rw (taskHalData + MAX_ACCEL)
            mot_comp_id
          if r ≠ 0 then
            return -1
          else
            return 0

/-- The application segment is no part of the catalog. -/
def init_task_comm_buffers : Spec Catalog Int := .guess fun _ _ => True

def init_task_threads (cfg : Config) (mot_comp_id : Int) : Spec Catalog Int := do
  let retval ← Catalog.hal_create_thread thread_name (cfg.task_period_nsec * 1000 % 2 ^ 64).toNat
    1 98
  if retval < 0 then
    return -1
  else
    let retval ← Catalog.hal_export_funct cmd_handler_name cfg.taskCommandHandler 0 1 0 mot_comp_id
    if retval < 0 then
      return -1
    else
      let retval ← Catalog.hal_export_funct controller_name cfg.taskController 0 1 0 mot_comp_id
      if retval < 0 then
        return -1
      else
        let _ ← Catalog.hal_add_funct_to_thread (some cmd_handler_name) (some thread_name) 1
        let _ ← Catalog.hal_add_funct_to_thread (some controller_name) (some thread_name) 2
        return 0

/-- The component exits, and the start has failed. -/
def fail (mot_comp_id : Int) : Spec Catalog Int := do
  let _ ← Catalog.hal_exit mot_comp_id
  return -1

def task_thread_phases (cfg : Config) (mot_comp_id : Int) : Spec Catalog Int := do
  if cfg.num_axis < 1 ∨ cfg.num_axis > MAX_AXES then
    fail mot_comp_id
  else
    let retval ← init_hal_param mot_comp_id
    if retval ≠ 0 then
      fail mot_comp_id
    else
      let retval ← init_task_comm_buffers
      if retval ≠ 0 then
        fail mot_comp_id
      else
        let retval ← init_task_threads cfg mot_comp_id
        if retval ≠ 0 then
          fail mot_comp_id
        else
          let _ ← Catalog.hal_ready mot_comp_id
          return 0

def task_thread_main (cfg : Config) : Spec Catalog Int := do
  let mot_comp_id ← Catalog.hal_init task1
  if mot_comp_id < 0 then
    return -1
  else
    task_thread_phases cfg mot_comp_id

end Abstract

variable {σ : Type} {R : Rtapi σ} {s s' : State σ} {L : Lists} {cfg : Config} {comp_id : Int}

/-- The program leaves the catalog as it is. -/
def Unseen {α : Type} (x : Prog σ α) : Prop :=
  ∀ s L, Inv s L → Wp x s (fun _ s' => Inv s' L ∧ Catalog.of s' L = .of s L) fun _ _ => True

namespace Unseen

variable {α β : Type} {x y : Prog σ α} {f : α → Prog σ β}

theorem pure {a : α} : Unseen (Pure.pure a : Prog σ α) := fun _ _ h => ⟨h, rfl⟩

theorem bind (hx : Unseen x) (hf : ∀ a, Unseen (f a)) : Unseen (x >>= f) := fun s L h =>
  wp_bind.mpr <| (hx s L h).mono (fun a s₁ ⟨h₁, e₁⟩ => (hf a s₁ L h₁).mono
    (fun _ _ ⟨h₂, e₂⟩ => ⟨h₂, e₂.trans e₁⟩) fun _ _ => id) fun _ _ => id

theorem ite {c : Prop} [Decidable c] (hx : Unseen x) (hy : Unseen y) :
    Unseen (if c then x else y) := fun s L h => .ite (fun _ => hx s L h) fun _ => hy s L h

theorem call (g : σ → α × σ) : Unseen (call g) := fun s _ h =>
  ⟨((Moved.refl h).outside _ s.ref_cnt s.strikes).inv, rfl⟩

theorem storeThrough (c : Nat) (v : Int) : Unseen (storeThrough c v : Prog σ Unit) := by
  intro s _ h
  unfold Hal.storeThrough Hal.store
  rw [wp_bind, wp_look]
  exact .ite (fun _ => trivial) fun _ => ⟨h.setData _ _, rfl⟩

/-- The catalog waits. -/
theorem tracks {y : Spec Catalog β} (hx : Unseen x) (h : ∀ a, Hal.Tracks (f a) y) :
    Hal.Tracks (x >>= f) y := fun s L hinv =>
  .behind <| (hx s L hinv).mono (fun a s₁ ⟨h₁, e₁⟩ => e₁ ▸ h a s₁ L h₁) fun _ _ => id

end Unseen

/-- A call and its counterpart. -/
theorem tracks_bind {α β : Type} {x : Prog σ α} {y : Spec Catalog α} {f : α → Prog σ β}
    {g : α → Spec Catalog β} (hx : Hal.Tracks x y) (hf : ∀ a, Hal.Tracks (f a) (g a)) :
    Hal.Tracks (x >>= f) (y >>= g) := fun s L h =>
  .bind <| (hx s L h).mono fun a b s₁ _ ⟨e, L₁, h₁, hc⟩ => by
    rw [e, hc]
    exact hf a s₁ L₁ h₁

theorem tracks_pure {α : Type} (a : α) : Hal.Tracks (σ := σ) (pure a) (pure a) := fun _ L h =>
  .pure ⟨rfl, L, h, rfl⟩

theorem tracks_ite {α : Type} {c : Prop} [Decidable c] {x x' : Prog σ α} {y y' : Spec Catalog α}
    (hx : Hal.Tracks x y) (hx' : Hal.Tracks x' y') :
    Hal.Tracks (if c then x else x') (if c then y else y') := fun s L h =>
  .ite Iff.rfl (fun _ => hx s L h) fun _ => hx' s L h

theorem pin_new_tracks (taskHalData : Addr) (ps : List NewPin) :
    Hal.Tracks (σ := σ) (pin_new taskHalData comp_id ps)
      (Abstract.pin_new taskHalData comp_id ps) := by
  induction ps with
  | nil => exact tracks_pure 0
  | cons p ps ih =>
      refine tracks_bind (fun s L h => (hal_pin_newf_tracks h _ _ _ _).mono fun _ _ _ _ => And.left)
        fun r => tracks_ite (tracks_pure _) ih

theorem initial_values_unseen (off : Nat) : Unseen (initial_values off : Prog σ Unit) :=
  .bind (.storeThrough _ _) fun _ => .bind (.storeThrough _ _) fun _ =>
    .bind (.storeThrough _ _) fun _ => .bind (.storeThrough _ _) fun _ =>
    .bind (.storeThrough _ _) fun _ => .bind (.storeThrough _ _) fun _ => .storeThrough _ _

theorem init_hal_param_tracks :
    Hal.Tracks (σ := σ) (init_hal_param comp_id) (Abstract.init_hal_param comp_id) := by
  intro s L h
  have h₀ : 0 ≤ TASK_HAL_DATA_SIZE := by decide
  refine .behind (Wp.mono (hal_malloc_tracks h₀ s L h) (fun block s₁ hpost => ?_) fun _ _ => id)
  obtain ⟨_, _, ⟨-, rfl⟩, -, L₁, h₁, hc⟩ := hpost
  rw [hc]
  rcases block with _ | off
  · exact .guess (b := none) trivial (tracks_pure _ s₁ L₁ h₁)
  · refine .guess (b := some (s₁.hal_shmem_base + off.toNat)) trivial ?_
    refine .behind (wp_get.mpr (mirrors_setData (mirrors_setData ?_)))
    refine tracks_bind (pin_new_tracks _ _) (fun r => tracks_ite (tracks_pure _) ?_) _ L₁
      ((h₁.setData _ _).setData _ _)
    refine (initial_values_unseen _).tracks fun _ => ?_
    refine tracks_bind (hal_param_new_tracks _ _ _ _ _) fun r => tracks_ite (tracks_pure _) ?_
    exact tracks_bind (hal_param_new_tracks _ _ _ _ _) fun r =>
      tracks_ite (tracks_pure _) (tracks_pure _)

theorem init_task_comm_buffers_tracks :
    Hal.Tracks (init_task_comm_buffers R comp_id) Abstract.init_task_comm_buffers := fun s L h => by
  have hunseen : Unseen (init_task_comm_buffers R comp_id) :=
    .bind (.call _) fun _ => .ite .pure <| .bind (.call _) fun _ => .ite .pure .pure
  exact .of_wp (hunseen s L h) fun r s' ⟨h', e⟩ => ⟨r, _, ⟨trivial, rfl⟩, rfl, L, h', e.symm⟩

theorem init_task_threads_tracks :
    Hal.Tracks (init_task_threads R cfg comp_id) (Abstract.init_task_threads cfg comp_id) := by
  refine tracks_bind (hal_create_thread_tracks _ _ _ _) fun _ => tracks_ite (tracks_pure _) ?_
  refine tracks_bind (hal_export_funct_tracks _ _ _ _ _ _) fun _ => tracks_ite (tracks_pure _) ?_
  refine tracks_bind (hal_export_funct_tracks _ _ _ _ _ _) fun _ => tracks_ite (tracks_pure _) ?_
  refine tracks_bind (hal_add_funct_tracks _ _ _) fun _ => ?_
  exact tracks_bind (hal_add_funct_tracks _ _ _) fun _ => tracks_pure _

theorem task_thread_phases_tracks :
    Hal.Tracks (task_thread_phases R cfg comp_id) (Abstract.task_thread_phases cfg comp_id) := by
  have hfail : Hal.Tracks (do let _ ← hal_exit R comp_id; return (-1 : Int))
      (Abstract.fail comp_id) :=
    tracks_bind (hal_exit_tracks comp_id) fun _ => tracks_pure _
  refine tracks_ite hfail (tracks_bind init_hal_param_tracks fun _ => tracks_ite hfail ?_)
  refine tracks_bind init_task_comm_buffers_tracks fun _ => tracks_ite hfail ?_
  refine tracks_bind init_task_threads_tracks fun _ => tracks_ite hfail ?_
  exact tracks_bind (hal_ready_tracks comp_id) fun _ => tracks_pure _

theorem hal_init_named_tracks (name : CStr) :
    Hal.Tracks (hal_init R (some name)) (Catalog.hal_init name) := fun _ _ h =>
  (hal_init_tracks h name).mono fun _ _ _ _ ⟨e, _, L', hm, hc⟩ => ⟨e, L', hm.inv, hc⟩

/-- **The start, on the catalog.** -/
theorem task_thread_main_tracks :
    Hal.Tracks (task_thread_main R cfg) (Abstract.task_thread_main cfg) :=
  tracks_bind (hal_init_named_tracks task1) fun _ =>
    tracks_ite (tracks_pure _) task_thread_phases_tracks

/-! ### A start that succeeds -/

variable {c c' : Catalog} {r : Int} {x : Nat}

theorem hasPin_mono {g g' : Registry} {name : CStr} {type : HalType} (h : g.HasPin x name type)
    (hg : g.pins ⊆ g'.pins) : g'.HasPin x name type := by
  obtain ⟨q, hq, hrec⟩ := h
  exact ⟨q, hg hq, hrec⟩

theorem hasParam_mono {g g' : Registry} {name : CStr} (h : g.HasParam x name)
    (hg : g.params ⊆ g'.params) : g'.HasParam x name := by
  obtain ⟨q, hq, hrec⟩ := h
  exact ⟨q, hg hq, hrec⟩

/-- The pins come, and have names that no pin had. -/
theorem pin_new_result {taskHalData : Addr} {ps : List NewPin}
    (h : Abstract.pin_new taskHalData comp_id ps c r c') : c'.lock = c.lock ∧
      c.reg.Furnishes c'.reg ∧ (r = 0 → c.reg.Registers comp_id x →
        ∀ p ∈ ps, p.name ∉ c.reg.pinNames ∧ c'.reg.HasPin x p.name p.type) := by
  induction ps generalizing c with
  | nil =>
      obtain ⟨-, rfl⟩ := h
      exact ⟨rfl, .refl, fun _ _ p hp => absurd hp List.not_mem_nil⟩
  | cons p ps ih =>
      obtain ⟨r₁, c₁, hpin, h⟩ := h
      obtain ⟨hl₁, hf₁, hgrant⟩ := Catalog.hal_pin_newf_result hpin
      split_ifs at h with hr₁
      · obtain ⟨rfl, rfl⟩ := h
        exact ⟨hl₁, hf₁, fun e => absurd e (by decide)⟩
      · obtain ⟨hl, hf, hall⟩ := ih h
        obtain ⟨hnew, y, hy, hhas⟩ := hgrant (Decidable.not_not.mp hr₁)
        refine ⟨hl.trans hl₁, hf₁.trans hf, fun hr hx => List.forall_mem_cons.mpr ⟨?_, ?_⟩⟩
        · obtain rfl := hy.unique hx
          exact ⟨hnew, hasPin_mono hhas hf.pins⟩
        · intro q hq
          obtain ⟨hqn, hqh⟩ := hall hr ((Registry.registers_congr hf₁.comps).mpr hx) q hq
          refine ⟨fun hm => hqn ?_, hqh⟩
          obtain ⟨q', hq', e⟩ := List.mem_map.mp hm
          exact List.mem_map.mpr ⟨q', hf₁.pins hq', e⟩

/-- The parameters of the task. -/
def hal_params : List CStr := [max_velocity_name, max_accel_name]

theorem init_hal_param_result (h : Abstract.init_hal_param comp_id c r c') : c'.lock = c.lock ∧
    c.reg.Furnishes c'.reg ∧ (r = 0 → c.reg.Registers comp_id x →
      (∀ p ∈ hal_pins, p.name ∉ c.reg.pinNames ∧ c'.reg.HasPin x p.name p.type) ∧
        ∀ name ∈ hal_params, c'.reg.HasParam x name) := by
  obtain ⟨block, c, ⟨-, rfl⟩, h⟩ := h
  have hno : (-1 : Int) ≠ 0 := by decide
  rcases block with _ | taskHalData
  · obtain ⟨rfl, rfl⟩ := h
    exact ⟨rfl, .refl, fun e => absurd e hno⟩
  obtain ⟨r₁, c₁, hpins, h⟩ := h
  obtain ⟨hl₁, hf₁, hall⟩ := pin_new_result (x := x) hpins
  split_ifs at h with hr₁
  · obtain ⟨rfl, rfl⟩ := h
    exact ⟨hl₁, hf₁, fun e => absurd e hno⟩
  obtain ⟨r₂, c₂, hvelocity, h⟩ := h
  obtain ⟨hl₂, hf₂, hgrant₂⟩ := Catalog.hal_param_new_result hvelocity
  split_ifs at h with hr₂
  · obtain ⟨rfl, rfl⟩ := h
    exact ⟨hl₂.trans hl₁, hf₁.trans hf₂, fun e => absurd e hno⟩
  obtain ⟨r₃, c₃, haccel, h⟩ := h
  obtain ⟨hl₃, hf₃, hgrant₃⟩ := Catalog.hal_param_new_result haccel
  have hl := (hl₃.trans hl₂).trans hl₁
  have hf := (hf₁.trans hf₂).trans hf₃
  split_ifs at h with hr₃
  · obtain ⟨rfl, rfl⟩ := h
    exact ⟨hl, hf, fun e => absurd e hno⟩
  obtain ⟨rfl, rfl⟩ := h
  refine ⟨hl, hf, fun _ hx => ⟨fun p hp => ?_, ?_⟩⟩
  · obtain ⟨hnew, hhas⟩ := hall (Decidable.not_not.mp hr₁) hx p hp
    exact ⟨hnew, hasPin_mono hhas (hf₂.trans hf₃).pins⟩
  · have hx₁ := (Registry.registers_congr hf₁.comps).mpr hx
    obtain ⟨y, hy, hhas₂⟩ := hgrant₂ (Decidable.not_not.mp hr₂)
    obtain ⟨z, hz, hhas₃⟩ := hgrant₃ (Decidable.not_not.mp hr₃)
    obtain rfl := hy.unique hx₁
    obtain rfl := hz.unique ((Registry.registers_congr hf₂.comps).mpr hx₁)
    exact List.forall_mem_cons.mpr ⟨hasParam_mono hhas₂ hf₃.params,
      List.forall_mem_singleton.mpr hhas₃⟩

/-- The thread `t` calls the command handler `f` and then the controller `k`, which belong to
`x`. -/
structure Mounted (cfg : Config) (g : Registry) (x t f k : Nat) : Prop where
  handler : g.HasFunct x f cmd_handler_name cfg.taskCommandHandler 1
  controller : g.HasFunct x k controller_name cfg.taskController 1
  thread : ∃ th es rest, g.threads = ⟨t, th, es⟩ :: rest ∧ th.name = thread_name ∧
    th.uses_fp = 1 ∧ th.period = toInt64 (cfg.task_period_nsec * 1000 % 2 ^ 64).toNat ∧
    th.priority = 98 ∧ es.map (fun e => e.2.funct_ptr) = [f, k]

/-- The component that registers is the one from before the thread, as the thread's is ready. -/
theorem registers_made {g g' : Registry} {t y : Nat} {th : Thread}
    (h : Catalog.ThreadMade g g' t th) (hy : g'.Registers comp_id y) : g.Registers comp_id y := by
  obtain ⟨z, first, hcomps, hready⟩ := h.comps
  obtain ⟨comp, hfind, h₀⟩ := hy
  refine ⟨comp, ?_, h₀⟩
  unfold Registry.findComp at hfind ⊢
  rw [hcomps, List.find?_cons] at hfind
  split at hfind
  · cases hfind
    exact absurd h₀ hready
  · exact hfind

theorem init_task_threads_result (hx : c.reg.Registers comp_id x)
    (h : Abstract.init_task_threads cfg comp_id c 0 c') : c'.reg.Registers comp_id x ∧
      c.reg.pins ⊆ c'.reg.pins ∧ c.reg.params ⊆ c'.reg.params ∧
        ∃ t f k, Mounted cfg c'.reg x t f k := by
  have hno : (0 : Int) ≠ -1 := by decide
  obtain ⟨r₁, c₁, hthread, h⟩ := h
  split_ifs at h with hr₁
  · exact absurd h.1 hno
  obtain ⟨r₂, c₂, hhandler, h⟩ := h
  split_ifs at h with hr₂
  · exact absurd h.1 hno
  obtain ⟨r₃, c₃, hcontroller, h⟩ := h
  split_ifs at h with hr₃
  · exact absurd h.1 hno
  obtain ⟨_, c₄, hadd, _, c₅, hadd', -, rfl⟩ := h
  obtain ⟨hlock, hl₁, t, th, hmade, hname, hfp, hperiod, hprio⟩ :=
    Catalog.hal_create_thread_result (by omega) hthread
  obtain ⟨hl₂, y, f, -, hy, hexp⟩ := Catalog.hal_export_funct_result (by omega) hhandler
  obtain ⟨hl₃, z, k, hk, hz, hexp'⟩ := Catalog.hal_export_funct_result (by omega) hcontroller
  -- both functions are the component's, and there are two
  obtain rfl : y = x := (registers_made hmade hy).unique hx
  obtain rfl : z = y := hz.unique ((Registry.registers_congr hexp.comps).mpr hy)
  have hkf : k ≠ f := fun e => hk <| by
    obtain ⟨rec, hmem, -⟩ := hexp.here
    exact e ▸ List.mem_map_of_mem hmem
  have hthreads₃ : c₃.reg.threads = ⟨t, th, []⟩ :: c.reg.threads :=
    (hexp'.threads.trans hexp.threads).trans hmade.threads
  have hf₃ := hexp'.others _ _ _ _ _ (by decide) hexp.here
  have hlock₃ : c₃.lock &&& HAL_LOCK_CONFIG = 0 := by rwa [hl₃, hl₂, hl₁]
  rw [← hname] at hadd hadd'
  have hfp₀ : th.uses_fp ≠ 0 := by omega
  obtain ⟨⟨hl₄, hc₄, hp₄, hpa₄⟩, hfuncts₄, e, he, hthreads₄⟩ :=
    Catalog.hal_add_funct_result hlock₃ hf₃ hthreads₃ hfp₀ hmade.fresh (i := 0) rfl hadd
  have hf₄ := hfuncts₄ _ _ _ _ _ hf₃
  have hk₄ := hfuncts₄ _ _ _ _ _ hexp'.here
  rw [if_pos rfl] at hf₄
  rw [if_neg hkf] at hk₄
  obtain ⟨⟨-, hc₅, hp₅, hpa₅⟩, hfuncts₅, e', he', hthreads₅⟩ :=
    Catalog.hal_add_funct_result (hl₄ ▸ hlock₃) hk₄ hthreads₄ hfp₀ hmade.fresh (i := 1) rfl hadd'
  have hf₅ := hfuncts₅ _ _ _ _ _ hf₄
  have hk₅ := hfuncts₅ _ _ _ _ _ hk₄
  rw [if_neg hkf.symm] at hf₅
  rw [if_pos rfl] at hk₅
  have hcomps : c'.reg.comps = c₂.reg.comps := hc₅.trans (hc₄.trans hexp'.comps)
  refine ⟨(Registry.registers_congr hcomps).mpr hz, fun q hq => ?_, fun q hq => ?_, t, f, k, hf₅,
    hk₅, th, _, _, hthreads₅, hname, hfp, hperiod, hprio, ?_⟩
  · rw [hp₅, hp₄]
    exact hexp'.pins (hexp.pins (hmade.pins hq))
  · rw [hpa₅, hpa₄]
    exact hexp'.params (hexp.params (hmade.params hq))
  · simp [he, he']

/-- What a start leaves: the component `x` with its pins and parameters, and the thread `t`. -/
structure Installed (cfg : Config) (g : Registry) (x t f k : Nat) : Prop
    extends Mounted cfg g x t f k where
  comp : ∃ comp, (x, comp) ∈ g.comps ∧ comp.ready ≠ 0
  pins : ∀ p ∈ hal_pins, g.HasPin x p.name p.type
  params : ∀ name ∈ hal_params, g.HasParam x name

/-- Past `hal_init`, whose component is `x`. -/
theorem task_thread_phases_result (hx : c.reg.Registers comp_id x)
    (h : Abstract.task_thread_phases cfg comp_id c 0 c') :
    (∀ p ∈ hal_pins, p.name ∉ c.reg.pinNames) ∧
      (∃ comp, c'.reg.findComp comp_id = some (x, comp) ∧ comp.ready ≠ 0) ∧
        ∃ t f k, Installed cfg c'.reg x t f k := by
  have hno : (0 : Int) ≠ -1 := by decide
  unfold Abstract.task_thread_phases at h
  split_ifs at h
  · obtain ⟨_, _, -, e, -⟩ := h
    exact absurd e hno
  obtain ⟨r₁, c₂, hparam, h⟩ := h
  split_ifs at h with hr₁
  · obtain ⟨_, _, -, e, -⟩ := h
    exact absurd e hno
  obtain ⟨r₂, c₃, hbuffers, h⟩ := h
  split_ifs at h
  · obtain ⟨_, _, -, e, -⟩ := h
    exact absurd e hno
  obtain ⟨-, rfl⟩ := hbuffers
  obtain ⟨r₃, c₄, hthreads, h⟩ := h
  split_ifs at h with hr₃
  · obtain ⟨_, _, -, e, -⟩ := h
    exact absurd e hno
  obtain ⟨_, c₅, hready, -, rfl⟩ := h
  obtain rfl : r₁ = 0 := Decidable.not_not.mp hr₁
  obtain rfl : r₃ = 0 := Decidable.not_not.mp hr₃
  obtain ⟨-, hf, hall⟩ := init_hal_param_result (x := x) hparam
  obtain ⟨hhal_pins, hhal_params⟩ := hall rfl hx
  obtain ⟨hx₄, hpins₄, hparams₄, t, f, k, hmounted⟩ :=
    init_task_threads_result ((Registry.registers_congr hf.comps).mpr hx) hthreads
  obtain ⟨comp', hcomp, hready', hrest⟩ := Catalog.hal_ready_registers hx₄ hready
  refine ⟨fun p hp => (hhal_pins p hp).1, ⟨comp', hcomp, hready'⟩, t, f, k, ?_⟩
  have hmem : (x, comp') ∈ c'.reg.comps := List.mem_of_find?_eq_some hcomp
  rw [hrest]
  exact
    { handler := hmounted.handler
      controller := hmounted.controller
      thread := hmounted.thread
      comp := ⟨comp', hmem, hready'⟩
      pins := fun p hp => hasPin_mono (hhal_pins p hp).2 hpins₄
      params := fun name hn => hasParam_mono (hhal_params name hn) hparams₄ }

/-- The component that `hal_init` makes. -/
theorem registers_init (hr : 0 ≤ comp_id) (h : Catalog.hal_init task1 c comp_id c') :
    c'.reg.pins = c.reg.pins ∧ ∃ x, c'.reg.Registers comp_id x := by
  obtain ⟨-, -, -, hpins, -, x, comp, -, hcomps, rfl, h₀⟩ := Catalog.hal_init_result hr h
  refine ⟨hpins, x, comp, ?_, h₀⟩
  unfold Registry.findComp
  rw [hcomps]
  exact List.find?_cons_of_pos (decide_eq_true rfl)

theorem task_thread_main_result (h : Abstract.task_thread_main cfg c 0 c') :
    (∀ p ∈ hal_pins, p.name ∉ c.reg.pinNames) ∧
      ∃ x t f k, Installed cfg c'.reg x t f k := by
  obtain ⟨id, c₁, hinit, h⟩ := h
  split_ifs at h with hid
  · exact absurd h.1 (by decide)
  obtain ⟨hpins, x, hx⟩ := registers_init (by omega) hinit
  obtain ⟨hnew, -, t, f, k, hinstalled⟩ := task_thread_phases_result hx h
  unfold Registry.pinNames at hnew ⊢
  rw [hpins] at hnew
  exact ⟨hnew, x, t, f, k, hinstalled⟩

/-! ### What a start keeps -/

/-- The specification keeps the registry tidy, and takes no pin away. -/
def Tidies {α : Type} (y : Spec Catalog α) : Prop :=
  ∀ c, c.reg.Tidy → y.Ensures c fun _ c' => c'.reg.Tidy ∧ c.reg.KeepsPins c'.reg

namespace Tidies

variable {α β : Type} {y y' : Spec Catalog α} {f : α → Spec Catalog β}

theorem pure {a : α} : Tidies (Pure.pure a) := fun _ h => .pure ⟨h, fun _ => id⟩

theorem guess {P : Catalog → α → Prop} : Tidies (.guess P) := fun _ h =>
  .guess fun _ _ => ⟨h, fun _ => id⟩

theorem bind (hy : Tidies y) (hf : ∀ a, Tidies (f a)) : Tidies (y >>= f) := fun c h =>
  .bind fun a c₁ ha => by
    obtain ⟨h₁, hp₁⟩ := hy c h a c₁ ha
    refine (hf a c₁ h₁).mono fun b c₂ ⟨h₂, hp₂⟩ => ⟨h₂, fun name hn => hp₂ name (hp₁ name hn)⟩

theorem ite {q : Prop} [Decidable q] (hy : Tidies y) (hy' : Tidies y') :
    Tidies (if q then y else y') := fun c h => .ite (fun _ => hy c h) fun _ => hy' c h

/-- Whatever goes through legal events. -/
theorem lawful (op : Op) (h : ∀ c : Catalog, c.reg.Tidy → Catalog.Lawful op y c) : Tidies y :=
  fun c hc => (h c hc).mono fun _ _ hgo => ⟨hgo.tidy hc, hgo.keepsPins⟩

/-- Whatever any operation may do. -/
theorem any (h : ∀ c : Catalog, c.reg.Tidy → ∀ op, Catalog.Lawful op y c) : Tidies y :=
  lawful .hal_get_state fun c hc => h c hc _

end Tidies

theorem pin_new_tidies (taskHalData : Addr) (ps : List NewPin) :
    Tidies (Abstract.pin_new taskHalData comp_id ps) := by
  induction ps with
  | nil => exact .pure
  | cons p ps ih =>
      exact .bind (.any fun _ _ _ => Catalog.hal_pin_newf_lawful _ _ _ _) fun _ => .ite .pure ih

theorem hal_param_new_tidies (name : CStr) (type : HalType) (dir : ParamDir) (data_addr : Addr) :
    Tidies (Catalog.hal_param_new name type dir data_addr comp_id) :=
  .any fun _ _ _ => Catalog.hal_param_new_lawful _ _ _ _ _

theorem init_hal_param_tidies : Tidies (Abstract.init_hal_param comp_id) := by
  refine .bind .guess fun block => ?_
  rcases block with _ | taskHalData
  · exact .pure
  · exact .bind (pin_new_tidies _ _) fun _ => .ite .pure <|
      .bind (hal_param_new_tidies _ _ _ _) fun _ => .ite .pure <|
      .bind (hal_param_new_tidies _ _ _ _) fun _ => .ite .pure .pure

theorem hal_export_funct_tidies (name : CStr) (funct arg : Addr) (uses_fp reentrant : Int) :
    Tidies (Catalog.hal_export_funct name funct arg uses_fp reentrant comp_id) :=
  .any fun _ _ _ => Catalog.hal_export_funct_lawful _ _ _ _ _ _

theorem hal_add_funct_tidies (funct_name thread_name : Option CStr) (position : Int) :
    Tidies (Catalog.hal_add_funct_to_thread funct_name thread_name position) :=
  .bind .guess fun _ => .any fun _ h _ => Catalog.Lawful.perform (Registry.goes_add_funct h _ _ _)

theorem init_task_threads_tidies : Tidies (Abstract.init_task_threads cfg comp_id) := by
  refine .bind (.any fun _ h _ => Catalog.hal_create_thread_lawful h _ _ _ _) fun _ => .ite .pure ?_
  refine .bind (hal_export_funct_tidies _ _ _ _ _) fun _ => .ite .pure ?_
  refine .bind (hal_export_funct_tidies _ _ _ _ _) fun _ => .ite .pure ?_
  exact .bind (hal_add_funct_tidies _ _ _) fun _ =>
    .bind (hal_add_funct_tidies _ _ _) fun _ => .pure

theorem task_thread_main_tidies : Tidies (Abstract.task_thread_main cfg) := by
  have hfail : ∀ id, Tidies (Abstract.fail id) := fun id =>
    .bind (.lawful (.hal_exit id) fun _ h => Catalog.Lawful.perform (Registry.goes_exit h _ _))
      fun _ => .pure
  refine .bind (.any fun _ _ _ => Catalog.hal_init_lawful _) fun id => .ite .pure ?_
  refine .ite (hfail id) (.bind init_hal_param_tidies fun _ => .ite (hfail id) ?_)
  refine .bind .guess fun _ => .ite (hfail id) ?_
  refine .bind init_task_threads_tidies fun _ => .ite (hfail id) ?_
  exact .bind (.any fun _ _ _ => Catalog.hal_ready_lawful _) fun _ => .pure

end RTS.ExampleTask

namespace RTS.Hal.Catalog

open RTS.Support.Spec

/-! ### The lock and the state -/

/-- The lock and the state are as before. -/
def SameMode (c c' : Catalog) : Prop := c'.lock = c.lock ∧ c'.state = c.state

instance : Std.Refl SameMode := ⟨fun _ => ⟨rfl, rfl⟩⟩

instance : IsTrans Catalog SameMode := ⟨fun _ _ _ h h' => ⟨h'.1.trans h.1, h'.2.trans h.2⟩⟩

theorem perform_mode {f : Catalog → Int × List Event} : Within SameMode (perform f) := by
  rintro c _ _ ⟨-, rfl⟩
  exact ⟨rfl, rfl⟩

theorem emit_mode {ev : Event} : Within SameMode (emit ev) := .modify fun _ => ⟨rfl, rfl⟩

variable {name : CStr} {comp_id : Int}

theorem hal_init_mode : Within SameMode (hal_init name) :=
  .bind .guess fun _ => .bind .guess fun _ => .bind .guess fun _ => perform_mode

theorem hal_param_new_mode {type : HalType} {dir : ParamDir} {data_addr : Addr} :
    Within SameMode (hal_param_new name type dir data_addr comp_id) :=
  .bind .guess fun _ => perform_mode

theorem hal_pin_newf_mode {type : HalType} {data_ptr_addr : Addr} :
    Within SameMode (hal_pin_newf type data_ptr_addr comp_id name) :=
  .bind .guess fun _ => perform_mode

theorem hal_export_funct_mode {funct arg : Addr} {uses_fp reentrant : Int} :
    Within SameMode (hal_export_funct name funct arg uses_fp reentrant comp_id) :=
  .bind .guess fun _ => .bind perform_mode fun _ => .ite .pure <|
    .bind .get fun _ => .bind hal_pin_newf_mode fun _ => .ite .pure <|
    .bind hal_param_new_mode fun _ => .bind hal_param_new_mode fun _ => .pure

theorem create_thread_comp_mode {new : Nat} {th : Thread} :
    Within SameMode (create_thread_comp new th) :=
  .bind .get fun _ => .bind hal_init_mode fun _ => .bind emit_mode fun _ => .ite .pure <|
    .bind hal_param_new_mode fun _ => .ite .pure <|
    .bind hal_pin_newf_mode fun _ => .ite .pure <| .bind perform_mode fun _ => .pure

theorem hal_create_thread_mode {period_nsec : Nat} {uses_fp priority : Int} :
    Within SameMode (hal_create_thread name period_nsec uses_fp priority) := by
  refine .bind .get fun _ => .ite .pure <| .ite .pure <| .ite .pure <| .ite .pure ?_
  refine .bind .guess fun new => .ite .pure (.bind .guess fun made => ?_)
  rcases made with _ | th
  · exact .pure
  · exact .bind emit_mode fun _ => create_thread_comp_mode

end RTS.Hal.Catalog

namespace RTS.ExampleTask

open RTS.Support RTS.Hal RTS.Uspace RTS.Support.Spec

variable {σ : Type} {R : Rtapi σ} {s s' : State σ} {L : Lists} {cfg : Config} {comp_id : Int}

theorem pin_new_mode {taskHalData : Addr} (ps : List NewPin) :
    Within Catalog.SameMode (Abstract.pin_new taskHalData comp_id ps) := by
  induction ps with
  | nil => exact .pure
  | cons p ps ih => exact .bind Catalog.hal_pin_newf_mode fun _ => .ite .pure ih

theorem init_hal_param_mode : Within Catalog.SameMode (Abstract.init_hal_param comp_id) := by
  refine .bind .guess fun block => ?_
  rcases block with _ | taskHalData
  · exact .pure
  · exact .bind (pin_new_mode _) fun _ => .ite .pure <|
      .bind Catalog.hal_param_new_mode fun _ => .ite .pure <|
      .bind Catalog.hal_param_new_mode fun _ => .ite .pure .pure

theorem init_task_threads_mode :
    Within Catalog.SameMode (Abstract.init_task_threads cfg comp_id) := by
  have hadd : ∀ f t p, Within Catalog.SameMode (Catalog.hal_add_funct_to_thread f t p) :=
    fun _ _ _ => .bind .guess fun _ => Catalog.perform_mode
  exact .bind Catalog.hal_create_thread_mode fun _ => .ite .pure <|
    .bind Catalog.hal_export_funct_mode fun _ => .ite .pure <|
    .bind Catalog.hal_export_funct_mode fun _ => .ite .pure <|
    .bind (hadd _ _ _) fun _ => .bind (hadd _ _ _) fun _ => .pure

/-- A start changes neither. -/
theorem task_thread_phases_mode :
    Within Catalog.SameMode (Abstract.task_thread_phases cfg comp_id) := by
  have hfail : Within Catalog.SameMode (Abstract.fail comp_id) :=
    .bind Catalog.perform_mode fun _ => .pure
  refine .ite hfail (.bind init_hal_param_mode fun _ => .ite hfail ?_)
  refine .bind .guess fun _ => .ite hfail (.bind init_task_threads_mode fun _ => .ite hfail ?_)
  exact .bind Catalog.perform_mode fun _ => .pure

/-! ### The life of HAL -/

variable (R) in
/-- Operations with cycles between them, starts of the task, and whatever else the process does with
RTAPI; with what the starts returned, newest first. -/
inductive Life (s₀ : State σ) : List Int → State σ → Prop
  | start : Life s₀ [] s₀
  | run {s s' : State σ} {rs : List Int} : Life s₀ rs s → Runs R (fun _ _ => True) s s' →
      Life s₀ rs s'
  | rtapi {s : State σ} {rs : List Int} (rt : σ) : Life s₀ rs s → Life s₀ rs { s with rt := rt }
  | main {s s' : State σ} {rs : List Int} {r : Int} (cfg : Config) : Life s₀ rs s →
      task_thread_main R cfg s = .ok r s' → Life s₀ (r :: rs) s'

/-- What a life keeps. -/
structure Lived (rs : List Int) (s : State σ) (L : Lists) : Prop where
  inv : Inv s L
  tidy : (view s.shm L).Tidy
  once : rs.count 0 ≤ 1
  named : 0 ∈ rs → enable_in_name ∈ (view s.shm L).pinNames

variable {s₀ s₁ : State σ} {rs : List Int}

theorem Lived.run {R : Rtapi σ} (h : Lived rs s L) (hruns : Runs R (fun _ _ => True) s s') :
    ∃ L', Lived rs s' L' := by
  obtain ⟨ops, hans⟩ := hruns.answered
  obtain ⟨L', hinv, hcat⟩ := hans.tracks rfl h.inv
  obtain ⟨htidy, hkeep⟩ := hcat.keeps (P := fun g => (view s.shm L).KeepsPins g) h.tidy
    (fun _ => id) fun _ _ g ev _ _ hg name hn => Registry.keepsPins_apply g ev name (hg name hn)
  exact ⟨L', hinv, htidy, h.once, fun h₀ => hkeep _ (h.named h₀)⟩

/-- **One start.**  When it succeeds, no other did. -/
theorem Lived.main {r : Int} (h : Lived rs s L) (hmain : task_thread_main R cfg s = .ok r s') :
    ∃ L', Lived (r :: rs) s' L' := by
  obtain ⟨r, c', hspec, rfl, L', hinv, rfl⟩ := (task_thread_main_tracks s L h.inv).of_ok hmain
  obtain ⟨htidy, hkeep⟩ := task_thread_main_tidies _ h.tidy _ _ hspec
  rcases eq_or_ne r 0 with rfl | hr
  · obtain ⟨hnew, x, t, f, k, hinstalled⟩ := task_thread_main_result hspec
    have hfirst : (⟨.bit, ENABLE_IN, enable_in_name⟩ : NewPin) ∈ hal_pins := List.mem_cons_self
    have hnone : 0 ∉ rs := fun h₀ => hnew _ hfirst (h.named h₀)
    refine ⟨L', hinv, htidy, ?_, fun _ => ?_⟩
    · rw [List.count_cons_self, List.count_eq_zero_of_not_mem hnone]
    · obtain ⟨q, hq, hname, -⟩ := hinstalled.pins _ hfirst
      exact List.mem_map.mpr ⟨q, hq, hname⟩
  · refine ⟨L', hinv, htidy, ?_, fun h₀ => hkeep _ (h.named ?_)⟩
    · rw [List.count_cons_of_ne hr]
      exact h.once
    · exact (List.mem_cons.mp h₀).resolve_left (Ne.symm hr)

theorem Life.lived (hb : Boots R s₀ s₁) (h : Life R s₁ rs s) : ∃ L, Lived rs s L := by
  induction h with
  | start =>
      exact ⟨.empty, hb.inv, Registry.tidy_empty, Nat.zero_le _, fun h => absurd h List.not_mem_nil⟩
  | run _ hruns ih =>
      obtain ⟨L, hl⟩ := ih
      exact hl.run hruns
  | @rtapi s rs rt _ ih =>
      obtain ⟨L, hl⟩ := ih
      exact ⟨L, ((Moved.refl hl.inv).outside rt s.ref_cnt s.strikes).inv, hl.tidy, hl.once,
        hl.named⟩
  | main cfg _ hmain ih =>
      obtain ⟨L, hl⟩ := ih
      exact hl.main hmain

/-- **At most one start succeeds in the life of HAL.** -/
theorem task_thread_main_once (hb : Boots R s₀ s₁) (h : Life R s₁ rs s) : rs.count 0 ≤ 1 := by
  obtain ⟨L, hl⟩ := h.lived hb
  exact hl.once

/-- The example task with one axis. -/
def one_axis : Config := ⟨1, 1000000, 8, 16⟩

/-- HAL with the task in it. -/
def taskStarted : State Machine := after (task_thread_main (rtapi serving) one_axis) started

theorem taskStarted_result :
    task_thread_main (rtapi serving) one_axis started = .ok 0 taskStarted :=
  result_eq (by decide +kernel)

/-- It is started again. -/
theorem task_thread_main_once_sample :
    ∃ s, Life (rtapi serving) started [-1, 0] s ∧ [-1, 0].count (0 : Int) ≤ 1 :=
  have hsecond : task_thread_main (rtapi serving) one_axis taskStarted = .ok (-1) _ :=
    result_eq (by decide +kernel)
  have hlife := Life.main one_axis (.main one_axis .start taskStarted_result) hsecond
  ⟨_, hlife, task_thread_main_once started_starts.boots hlife⟩

/-- What a start leaves in the segment: the component `x`, ready, with its pins and parameters, and
the thread `t`, whose schedule is the command handler `f` and then the controller `k`. -/
structure Wired (cfg : Config) (m : Segment) (x t f k : Nat) : Prop where
  comp : m.Listed .comp x ∧ (m.comp x).ready ≠ 0
  pins : ∀ p ∈ hal_pins, ∃ y, m.Listed .pin y ∧ (m.pin y).name = p.name ∧
    (m.pin y).type = p.type ∧ (m.pin y).owner_ptr = x
  params : ∀ name ∈ hal_params, ∃ y, m.Listed .param y ∧ (m.param y).name = name ∧
    (m.param y).owner_ptr = x
  handler : m.Listed .funct f ∧ (m.funct f).name = cmd_handler_name ∧
    (m.funct f).funct = cfg.taskCommandHandler ∧ (m.funct f).owner_ptr = x
  controller : m.Listed .funct k ∧ (m.funct k).name = controller_name ∧
    (m.funct k).funct = cfg.taskController ∧ (m.funct k).owner_ptr = x
  thread : m.Listed .thread t ∧ (m.thread t).name = thread_name ∧ (m.thread t).uses_fp = 1 ∧
    (m.thread t).period = toInt64 (cfg.task_period_nsec * 1000 % 2 ^ 64).toNat ∧
    (m.thread t).priority = 98
  schedule : ∃ es, Ring m.arena.links (t + THREAD_FUNCT_LIST) es ∧
    es.map (fun e => (m.entry e).funct_ptr) = [f, k]

theorem Installed.wired {x t f k : Nat} (h : Inv s L) (hs : Installed cfg (view s.shm L) x t f k) :
    Wired cfg s.shm x t f k := by
  have hshape := h.good.shape
  have hfunct : ∀ {f : Nat} {name : CStr} {funct : Addr} {users : Int},
      (view s.shm L).HasFunct x f name funct users → s.shm.Listed .funct f ∧
        (s.shm.funct f).name = name ∧ (s.shm.funct f).funct = funct ∧
        (s.shm.funct f).owner_ptr = x := by
    rintro f name funct users ⟨rec, hmem, ⟨hname, hcode, howner, -⟩, -⟩
    have hmem : f ∈ L.act .funct ∧ rec = s.shm.funct f := mem_tab.mp hmem
    obtain ⟨hf, rfl⟩ := hmem
    exact ⟨hshape.listed.mpr hf, hname, hcode, howner⟩
  obtain ⟨th, es, rest, hthreads, hname, hfp, hperiod, hprio, hes⟩ := hs.thread
  have hslot : (⟨t, th, es⟩ : Slot) ∈ (view s.shm L).threads := hthreads ▸ List.mem_cons_self
  exact
    { comp := by
        obtain ⟨comp, hcomp, hready⟩ := hs.comp
        have hcomp : x ∈ L.act .comp ∧ comp = s.shm.comp x := mem_tab.mp hcomp
        obtain ⟨hx, rfl⟩ := hcomp
        exact ⟨hshape.listed.mpr hx, hready⟩
      pins := by
        intro p hp
        obtain ⟨⟨y, rec⟩, hmem, hrec⟩ := hs.pins p hp
        have hmem : y ∈ L.act .pin ∧ rec = s.shm.pin y := mem_tab.mp hmem
        obtain ⟨hy, rfl⟩ := hmem
        exact ⟨y, hshape.listed.mpr hy, hrec⟩
      params := by
        intro name hn
        obtain ⟨⟨y, rec⟩, hmem, hrec⟩ := hs.params name hn
        have hmem : y ∈ L.act .param ∧ rec = s.shm.param y := mem_tab.mp hmem
        obtain ⟨hy, rfl⟩ := hmem
        exact ⟨y, hshape.listed.mpr hy, hrec⟩
      handler := hfunct hs.handler
      controller := hfunct hs.controller
      thread := by
        obtain ⟨t', ht', e⟩ := List.mem_map.mp hslot
        cases e
        exact ⟨hshape.listed.mpr ht', hname, hfp, hperiod, hprio⟩
      schedule := by
        obtain ⟨hring, -, hrecs⟩ := hshape.holds.rings _ hslot
        refine ⟨_, hring, ?_⟩
        rw [List.map_map, ← hes]
        refine List.map_congr_left fun e he => ?_
        rw [hrecs e he]
        rfl }

/-- **A start that succeeds** leaves the task wired. -/
theorem task_thread_main_wired (hb : Boots R s₀ s₁) (h : Life R s₁ rs s)
    (hmain : task_thread_main R cfg s = .ok 0 s') : ∃ x t f k, Wired cfg s'.shm x t f k := by
  obtain ⟨L, hl⟩ := h.lived hb
  obtain ⟨_, c', hspec, rfl, L', hinv, rfl⟩ := (task_thread_main_tracks s L hl.inv).of_ok hmain
  obtain ⟨-, x, t, f, k, hs⟩ := task_thread_main_result hspec
  exact ⟨x, t, f, k, hs.wired hinv⟩

theorem task_thread_main_wired_sample : ∃ x t f k, Wired one_axis taskStarted.shm x t f k :=
  task_thread_main_wired started_starts.boots .start taskStarted_result

end RTS.ExampleTask

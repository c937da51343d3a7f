import RealTimeSystem.Hal.Outcomes
import RealTimeSystem.System.Discipline

/-!
# System — what holds along every run

The operations of a run go through legal events, and what legal events keep holds all along.

* **`floating_point_kept`**: a thread without floating point calls no function that uses it.
* **`ready_frozen`**: once a component is ready, its pins, parameters and functions stay as they are,
  until it is made unready or exits.
* **`pin_names_once`**: no name of a pin is registered twice, and none goes away.
-/

namespace RTS.Hal

open RTS.Support RTS.Uspace

variable {σ : Type} {R : Rtapi σ} {s s' s₀ s₁ : State σ} {L L' : Lists} {rs rs' : List (Op × Reply)}
  {c c' c₀ : Catalog} {g g' : Registry} {op : Op}

/-! ### Runs of the catalog -/

/-- What the legal events of the operations keep, a run keeps. -/
theorem Catalog.Answered.keeps {P : Registry → Prop} (h : c₀.Answered rs c) (ht : c₀.reg.Tidy)
    (h₀ : P c₀.reg) (hstep : ∀ q ∈ rs, ∀ g (ev : Event), g.Tidy → ev.Legal q.1 g → P g →
      P (g.apply ev)) : c.reg.Tidy ∧ P c.reg := by
  induction h with
  | start => exact ⟨ht, h₀⟩
  | op _ hop ih =>
      obtain ⟨ht, hp⟩ := ih fun q hq => hstep q (List.mem_cons_of_mem _ hq)
      exact (Op.lawful _ ht _ _ hop).keeps ht hp fun g ev => hstep _ List.mem_cons_self g ev

theorem Catalog.Answered.tidy (h : c₀.Answered rs c) (ht : c₀.reg.Tidy) : c.reg.Tidy :=
  (h.keeps (P := fun _ => True) ht trivial fun _ _ _ _ _ _ => id).1

theorem Registry.tidy_empty : Registry.Tidy {} where
  comps := List.nodup_nil
  params := List.nodup_nil
  functs := List.nodup_nil
  threads := List.nodup_nil
  linked _ hu := absurd hu List.not_mem_nil
  fp _ hu := absurd hu List.not_mem_nil

/-- In every state of a run the registry is tidy. -/
theorem Answered.tidy (hb : Boots R s₀ s₁) (h : Answered R s₁ rs s) :
    ∃ L, Inv s L ∧ (view s.shm L).Tidy := by
  obtain ⟨L, hinv, hrun⟩ := h.tracks hb.catalog hb.inv
  exact ⟨L, hinv, hrun.tidy Registry.tidy_empty⟩

/-! ### Floating point -/

/-- **A thread without floating point calls no function that uses it.** -/
theorem floating_point_kept (hb : Boots R s₀ s₁) (h : Answered R s₁ rs s) {t : Nat}
    (ht : s.shm.Listed .thread t) (hfp : (s.shm.thread t).uses_fp = 0) :
    ∃ es, Ring s.shm.arena.links (t + THREAD_FUNCT_LIST) es ∧ ∀ e ∈ es,
      s.shm.Listed .funct (s.shm.entry e).funct_ptr ∧
        (s.shm.funct (s.shm.entry e).funct_ptr).uses_fp = 0 := by
  obtain ⟨L, hinv, htidy⟩ := h.tidy hb
  have hshape := hinv.good.shape
  have hu : slot s.shm L t ∈ (view s.shm L).threads := List.mem_map_of_mem (hshape.listed.mp ht)
  refine ⟨_, (hshape.holds.rings _ hu).1, fun e he => ?_⟩
  obtain ⟨⟨e, r⟩, hr, rfl⟩ := List.mem_map.mp he
  obtain rfl : r = s.shm.entry e := (hshape.holds.rings _ hu).2.2 _ hr
  obtain ⟨p, hp, hpe⟩ := List.mem_map.mp (htidy.linked _ hu _ hr)
  obtain ⟨hl, hrec⟩ := mem_tab.mp hp
  have hkept := htidy.fp _ hu _ hr p hp hpe
  rw [← hpe]
  refine ⟨hshape.listed.mpr hl, Decidable.byContradiction fun hne => ?_⟩
  exact hkept (hrec ▸ hne) hfp

theorem scheduled_floating_point : ∃ es,
    Ring scheduled.shm.arena.links ((scheduled.shm.arena.pool .thread).list_ptr + THREAD_FUNCT_LIST)
      es ∧ ∀ e ∈ es, scheduled.shm.Listed .funct (scheduled.shm.entry e).funct_ptr ∧
        (scheduled.shm.funct (scheduled.shm.entry e).funct_ptr).uses_fp = 0 := by
  have hruns : Runs (rtapi serving) (fun _ _ => True) started scheduled :=
    Playable.runs ⟨trivial, trivial, by decide +kernel, trivial, trivial, by decide +kernel,
      trivial, trivial, by decide +kernel, trivial, trivial, by decide +kernel, trivial⟩ .start
  obtain ⟨rs, hrun⟩ := hruns.answered
  exact floating_point_kept started_starts.boots hrun
    ((Segment.listed_one (by decide +kernel) (by decide +kernel)).mpr rfl) (by decide +kernel)

/-! ### Ready components -/

/-- The operation neither ends the component nor makes it unready. -/
def Op.Spares (op : Op) (comp_id : Int) : Prop := op ≠ .hal_exit comp_id ∧ ¬ op.Unreadies comp_id

namespace Registry

/-- The part of a table that belongs to `x`. -/
def owned {α : Type} (owner : α → Nat) (x : Nat) (t : List (Nat × α)) : List (Nat × α) :=
  t.filter fun p => owner p.2 = x

/-- The function, whoever calls it. -/
def idle (p : Nat × Funct) : Nat × Funct := (p.1, { p.2 with users := 0 })

/-- The pins, the parameters and the functions of a component. -/
structure Holdings where
  pins : List (Nat × Pin)
  params : List (Nat × Param)
  functs : List (Nat × Funct)

def holdings (g : Registry) (x : Nat) : Holdings where
  pins := owned Pin.owner_ptr x g.pins
  params := owned Param.owner_ptr x g.params
  functs := (owned Funct.owner_ptr x g.functs).map idle

section
variable {α : Type} {owner : α → Nat} {x y : Nat} {a : α}

/-- What another component enters is not seen. -/
theorem owned_enter {lt : Nat × α → Nat × α → Prop} [DecidableRel lt] (h : owner a ≠ x)
    (t : List (Nat × α)) : owned owner x (enter lt (y, a) t) = owned owner x t := by
  have ht : t.takeWhile (fun b => lt b (y, a)) ++ t.dropWhile (fun b => lt b (y, a)) = t :=
    List.takeWhile_append_dropWhile
  rw [owned, enter, List.filter_append, List.filter_cons, if_neg (by simpa using h),
    ← List.filter_append, ht, owned]

/-- What another component loses is not missed. -/
theorem owned_drop {t : List (Nat × α)} (h : ∀ p ∈ t, p.1 = y → owner p.2 ≠ x) :
    owned owner x (t.filter fun p => p.1 ≠ y) = owned owner x t := by
  rw [owned, owned, List.filter_filter]
  refine List.filter_congr fun p hp => ?_
  by_cases hy : p.1 = y
  · simp [h p hp hy]
  · simp [hy]

/-- Who calls the functions is not seen. -/
theorem owned_users {f : Nat × Funct → Nat × Funct} (hf : ∀ p, ∃ u, f p = (p.1, { p.2 with users := u }))
    (t : List (Nat × Funct)) : (owned Funct.owner_ptr x (t.map f)).map idle =
      (owned Funct.owner_ptr x t).map idle := by
  rw [owned, List.filter_map, List.map_map]
  have hfilter : t.filter ((fun p => decide (p.2.owner_ptr = x)) ∘ f) = owned Funct.owner_ptr x t :=
    List.filter_congr fun p _ => by
      obtain ⟨u, e⟩ := hf p
      simp only [Function.comp_apply, e]
  rw [hfilter]
  refine List.map_congr_left fun p _ => ?_
  obtain ⟨u, e⟩ := hf p
  simp only [Function.comp_apply, e, idle]

end

/-- A component that is ready. -/
def Ready (g : Registry) (x : Nat) (c : Comp) : Prop :=
  ∃ c', (x, c') ∈ g.comps ∧ c' = { c with ready := c'.ready, make := c'.make } ∧ c'.ready ≠ 0

/-- Another component owns what a legal event registers or drops. -/
theorem Ready.not_open {x : Nat} {k : Comp} (ht : g.Tidy) (h : g.Ready x k) : ¬ g.Open x := by
  obtain ⟨c', hc', -, hr⟩ := h
  rintro ⟨c, hc, h₀⟩
  have := List.inj_on_of_nodup_map ht.comps hc hc' rfl
  exact hr (congrArg (fun p => p.2.ready) this ▸ h₀)

theorem Ready.not_leaving {x : Nat} {k : Comp} (ht : g.Tidy) (h : g.Ready x k)
    (hop : op.Spares k.comp_id) : ¬ g.Leaving op x := by
  obtain ⟨c', hc', hk, -⟩ := h
  rintro ⟨c, hc, rfl⟩
  have := List.inj_on_of_nodup_map ht.comps hc hc' rfl
  obtain rfl : c = c' := congrArg Prod.snd this
  exact hop.1 (by rw [hk])

/-- **A legal event leaves what a ready component holds.** -/
theorem Ready.apply {x : Nat} {k : Comp} (ht : g.Tidy) (h : g.Ready x k) (hop : op.Spares k.comp_id)
    {ev : Event} (ok : ev.Legal op g) :
    (g.apply ev).Ready x k ∧ (g.apply ev).holdings x = g.holdings x := by
  have hopen := h.not_open ht
  have hleave := h.not_leaving ht hop
  have hother : ∀ {y}, g.Open y → y ≠ x := fun hy e => hopen (e ▸ hy)
  have hgone : ∀ {y}, g.Leaving op y → y ≠ x := fun hy e => hleave (e ▸ hy)
  cases ev with
  | addComp y c =>
      obtain ⟨c', hc', hk⟩ := h
      exact ⟨⟨c', List.mem_cons_of_mem _ hc', hk⟩, rfl⟩
  | setComp y c =>
      refine ⟨?_, rfl⟩
      obtain ⟨c', hc', hk, hr⟩ := h
      by_cases hy : x = y
      · obtain ⟨old, hold, hc, hready⟩ := ok
        obtain rfl : old = c' :=
          congrArg Prod.snd (List.inj_on_of_nodup_map ht.comps hold hc' hy.symm)
        refine ⟨c, List.mem_map.mpr ⟨_, hc', by simp [hy]⟩, by rw [hc, hk], fun h₀ => ?_⟩
        exact (hready h₀).elim hr fun hun => hop.2 (by rw [hk] at hun; exact hun)
      · exact ⟨c', List.mem_map.mpr ⟨_, hc', by simp [hy]⟩, hk, hr⟩
  | dropComp y =>
      refine ⟨?_, rfl⟩
      obtain ⟨c', hc', hk⟩ := h
      exact ⟨c', List.mem_filter.mpr ⟨hc', decide_eq_true (hgone ok).symm⟩, hk⟩
  | addPin y p =>
      refine ⟨h, ?_⟩
      simp only [holdings, Registry.apply, owned_enter (hother ok)]
  | addParam y p =>
      refine ⟨h, ?_⟩
      simp only [holdings, Registry.apply, owned_enter (hother ok.2)]
  | dropParam y =>
      refine ⟨h, ?_⟩
      simp only [holdings, Registry.apply, owned_drop fun p hp e => hgone (ok p hp e)]
  | addFunct y f =>
      refine ⟨h, ?_⟩
      simp only [holdings, Registry.apply, owned_enter (hother ok.2)]
  | dropFunct y =>
      refine ⟨h, ?_⟩
      simp only [holdings, Registry.apply, owned_drop fun p hp e => hgone (ok p hp e)]
  | addThread t th => exact ⟨h, rfl⟩
  | setThread t th => exact ⟨h, rfl⟩
  | dropThread t =>
      refine ⟨h, ?_⟩
      simp only [holdings, Registry.apply, release]
      rw [owned_users fun p => ⟨_, rfl⟩]
  | schedule t i e r =>
      refine ⟨h, ?_⟩
      simp only [holdings, Registry.apply]
      rw [owned_users fun p => ?_]
      split_ifs
      · exact ⟨_, rfl⟩
      · exact ⟨p.2.users, rfl⟩
  | unschedule t e f =>
      refine ⟨h, ?_⟩
      simp only [holdings, Registry.apply]
      rw [owned_users fun p => ?_]
      split_ifs
      · exact ⟨_, rfl⟩
      · exact ⟨p.2.users, rfl⟩

end Registry

/-- **What a ready component holds stays as it is.** -/
theorem ready_frozen (hb : Boots R s₀ s₁) (h : Answered R s₁ rs s) {x : Nat}
    (hx : s.shm.Listed .comp x) (hr : (s.shm.comp x).ready ≠ 0) (h' : Answered R s rs' s')
    (hspare : ∀ q ∈ rs', q.1.Spares (s.shm.comp x).comp_id) :
    ∃ g g', s.shm.Holds g ∧ s'.shm.Holds g' ∧ g'.Ready x (s.shm.comp x) ∧
      g'.holdings x = g.holdings x := by
  obtain ⟨L, hinv, htidy⟩ := h.tidy hb
  obtain ⟨L', hinv', hrun⟩ := h'.tracks rfl hinv
  have hready : (view s.shm L).Ready x (s.shm.comp x) :=
    ⟨_, mem_tab.mpr ⟨hinv.good.shape.listed.mp hx, rfl⟩, rfl, hr⟩
  obtain ⟨-, hr', hh⟩ := hrun.keeps
    (P := fun g => g.Ready x (s.shm.comp x) ∧ g.holdings x = (view s.shm L).holdings x) htidy
    ⟨hready, rfl⟩ fun q hq g ev ht ok ⟨hr, hh⟩ => by
      obtain ⟨hr', hh'⟩ := hr.apply ht (hspare q hq) ok
      exact ⟨hr', hh'.trans hh⟩
  exact ⟨_, _, hinv.good.shape.holds, hinv'.good.shape.holds, hr', hh⟩

/-- The component is ready, and then gets a constructor. -/
def hal_ready_c : Op := .hal_ready 2

def set_constructor_c : Op := .hal_set_constructor 2 24

def readied : State Machine := after (hal_ready_c.reply (rtapi serving)) exported

def constructed : State Machine := after (set_constructor_c.reply (rtapi serving)) readied

theorem readied_frozen : ∃ g g', readied.shm.Holds g ∧ constructed.shm.Holds g' ∧
    g'.Ready (readied.shm.arena.pool .comp).list_ptr
      (readied.shm.comp (readied.shm.arena.pool .comp).list_ptr) ∧
    g'.holdings (readied.shm.arena.pool .comp).list_ptr =
      g.holdings (readied.shm.arena.pool .comp).list_ptr := by
  have h : Answered (rtapi serving) started
      [(hal_ready_c, .code 0), (export_f, .code 0), (init_c, .code 2)] readied :=
    .op exported_answered (show hal_ready_c.Sane from trivial) (result_eq (by decide +kernel))
  have h' : Answered (rtapi serving) readied [(set_constructor_c, .code 0)] constructed :=
    .op .start (show set_constructor_c.Sane from trivial) (result_eq (by decide +kernel))
  refine ready_frozen started_starts.boots h
    ((Segment.listed_one (by decide +kernel) (by decide +kernel)).mpr rfl) (by decide +kernel) h'
    fun q hq => ?_
  obtain rfl := List.mem_singleton.mp hq
  refine ⟨fun h => ?_, fun h => ?_⟩
  · cases h
  · rcases h with h | h <;> cases h

/-! ### The names of pins -/

namespace Registry

/-- The names of the pins. -/
def pinNames (g : Registry) : List CStr := g.pins.map fun p => p.2.name

/-- No name of a pin goes away. -/
def KeepsPins (g g' : Registry) : Prop := ∀ name ∈ g.pinNames, name ∈ g'.pinNames

/-- No event takes a pin away. -/
theorem keepsPins_apply (g : Registry) (ev : Event) : g.KeepsPins (g.apply ev) := by
  intro name hn
  cases ev with
  | addPin y q =>
      obtain ⟨p, hp, rfl⟩ := List.mem_map.mp hn
      exact List.mem_map.mpr ⟨p, mem_enter.mpr (.inr hp), rfl⟩
  | _ => exact hn

theorem keepsPins_applyAll (g : Registry) (evs : List Event) : g.KeepsPins (g.applyAll evs) := by
  induction evs generalizing g with
  | nil => exact fun _ => id
  | cons ev evs ih => exact fun name hn => ih _ name (keepsPins_apply g ev name hn)

theorem Goes.keepsPins (h : Goes op g g') : g.KeepsPins g' := by
  induction h with
  | refl => exact fun _ => id
  | tail _ hev ih =>
      obtain ⟨ev, -, rfl⟩ := hev
      exact fun name hn => keepsPins_apply _ ev name (ih name hn)

/-- A name that came. -/
def Gains (name : CStr) (g g' : Registry) : Prop := name ∉ g.pinNames ∧ name ∈ g'.pinNames

theorem Gains.before {g₁ : Registry} {name : CStr} (hn : Gains name g₁ g') (h : g.KeepsPins g₁) :
    Gains name g g' := ⟨fun h₁ => hn.1 (h name h₁), hn.2⟩

theorem Gains.after {g₁ : Registry} {name : CStr} (hn : Gains name g g₁) (h : g₁.KeepsPins g') :
    Gains name g g' := ⟨hn.1, h name hn.2⟩

/-- A pin that comes has a name that no pin had. -/
theorem Makes.gains {x : Int × List Event} {comp_id : Int} {name : CStr} {type : HalType}
    (h : Makes x (g.PinComes comp_id name type)) (hr : x.1 = 0) : Gains name g (g.applyAll x.2) := by
  rcases h with ⟨hneg, -⟩ | ⟨-, ev, he, _, y, p, -, hfree, rfl, hname, -, -⟩
  · exact absurd hr hneg.ne
  · rw [he]
    refine ⟨fun hm => ?_, List.mem_map.mpr ⟨(y, p), mem_enter.mpr (.inl rfl), hname⟩⟩
    obtain ⟨q, hq, e⟩ := List.mem_map.mp hm
    exact hfree q hq e

end Registry

/-- The name of the pin that an operation made. -/
def Op.pinMade : Op × Reply → Option CStr
  | (.hal_pin_new name _ _ _, .code r) => if r = 0 then some name else none
  | (.hal_export_funct name _ _ _ _ _, .code r) => if r = 0 then some (name ++ dotTime) else none
  | (.hal_create_thread name _ _ _, .code r) => if 0 ≤ r then some (name ++ dotTime) else none
  | _ => none

namespace Catalog

theorem hal_pin_newf_gains {type : HalType} {data_ptr_addr : Addr} {comp_id : Int} {full : CStr}
    (h : hal_pin_newf type data_ptr_addr comp_id full c 0 c') :
    Registry.Gains full c.reg c'.reg := by
  obtain ⟨new, _, ⟨-, rfl⟩, hr, rfl⟩ := h
  exact Registry.pin_newf_makes.gains hr.symm

theorem hal_param_new_keepsPins {name : CStr} {type : HalType} {dir : ParamDir} {data_addr : Addr}
    {comp_id r : Int} (h : hal_param_new name type dir data_addr comp_id c r c') :
    c.reg.KeepsPins c'.reg := by
  obtain ⟨_, _, ⟨-, rfl⟩, -, rfl⟩ := h
  exact Registry.keepsPins_applyAll _ _

theorem hal_init_keepsPins {name : CStr} {r : Int} (h : hal_init name c r c') :
    c.reg.KeepsPins c'.reg := by
  obtain ⟨_, _, ⟨-, rfl⟩, _, _, ⟨-, rfl⟩, _, _, ⟨-, rfl⟩, -, rfl⟩ := h
  exact Registry.keepsPins_applyAll _ _

theorem export_funct_pins_gains {name : CStr} {new : Nat} {comp_id : Int}
    (h : export_funct_pins name new comp_id c 0 c') :
    Registry.Gains (name ++ dotTime) c.reg c'.reg := by
  obtain ⟨_, _, ⟨rfl, rfl⟩, r, c₁, hpin, h⟩ := h
  split_ifs at h with hr
  · exact absurd h.1 (by decide)
  · obtain ⟨_, c₂, hmax, _, c₃, hincreased, -, rfl⟩ := h
    obtain rfl : r = 0 := Decidable.not_not.mp hr
    have hgain := (hal_pin_newf_gains hpin).after (hal_param_new_keepsPins hmax)
    exact hgain.after (hal_param_new_keepsPins hincreased)

theorem hal_export_funct_gains {name : CStr} {funct arg : Addr} {uses_fp reentrant comp_id : Int}
    (h : hal_export_funct name funct arg uses_fp reentrant comp_id c 0 c') :
    Registry.Gains (name ++ dotTime) c.reg c'.reg := by
  obtain ⟨new, _, ⟨-, rfl⟩, r, _, ⟨-, rfl⟩, h⟩ := h
  split_ifs at h with hr
  · exact absurd h.1.symm hr
  · exact (export_funct_pins_gains h).before (Registry.keepsPins_applyAll _ _)

theorem create_thread_comp_gains {new : Nat} {th : Thread} {r : Int} (hr : 0 ≤ r)
    (h : create_thread_comp new th c r c') :
    Registry.Gains (th.name ++ dotTime) c.reg c'.reg := by
  obtain ⟨_, _, ⟨rfl, rfl⟩, comp_id, c₁, hinit, ⟨⟩, c₂, rfl, h⟩ := h
  have refused : ¬ (0 ≤ -EINVAL) := by decide
  split_ifs at h with hid
  · exact absurd (h.1 ▸ hr) refused
  obtain ⟨r₁, c₃, hparam, h⟩ := h
  split_ifs at h with hr₁
  · exact absurd (h.1 ▸ hr) refused
  obtain ⟨r₂, c₄, hpin, h⟩ := h
  split_ifs at h with hr₂
  · exact absurd (h.1 ▸ hr) refused
  obtain ⟨_, _, ⟨-, rfl⟩, -, rfl⟩ := h
  obtain rfl : r₂ = 0 := Decidable.not_not.mp hr₂
  have hgain := (hal_pin_newf_gains hpin).before (hal_param_new_keepsPins hparam)
  refine ((hgain.before (Registry.keepsPins_applyAll _ _)).before (hal_init_keepsPins hinit)).after ?_
  exact Registry.keepsPins_applyAll _ _

theorem hal_create_thread_gains {name : CStr} {period_nsec : Nat} {uses_fp priority r : Int}
    (hr : 0 ≤ r) (h : hal_create_thread name period_nsec uses_fp priority c r c') :
    Registry.Gains (name ++ dotTime) c.reg c'.reg := by
  have refused : ∀ {e : Int}, e < 0 → r ≠ e := fun he e => absurd (e ▸ hr) (by omega)
  obtain ⟨_, _, ⟨rfl, rfl⟩, h⟩ := h
  split_ifs at h
  · exact absurd h.1 (refused (by decide))
  · exact absurd h.1 (refused (by decide))
  · exact absurd h.1 (refused (by decide))
  · exact absurd h.1 (refused (by decide))
  obtain ⟨new, _, ⟨-, rfl⟩, h⟩ := h
  split_ifs at h
  · exact absurd h.1 (refused (by decide))
  obtain ⟨made, _, ⟨hmade, rfl⟩, h⟩ := h
  rcases made with _ | th
  · exact absurd h.1 (refused (by decide))
  · obtain ⟨⟨⟩, _, rfl, h⟩ := h
    have hgain := (create_thread_comp_gains hr h).before (Registry.keepsPins_applyAll _ _)
    exact (hmade th rfl).1 ▸ hgain

end Catalog

/-- A pin that an operation made has a name that no pin had. -/
theorem Op.gains {r : Reply} {name : CStr} (h : op.catalog c r c')
    (hn : Op.pinMade (op, r) = some name) : Registry.Gains name c.reg c'.reg := by
  unfold Op.pinMade at hn
  split at hn
  · rename_i e
    obtain ⟨rfl, rfl⟩ := Prod.mk.inj e
    split_ifs at hn with hr
    cases hn
    obtain ⟨_, _, ⟨new, _, ⟨-, rfl⟩, hcode, rfl⟩, ⟨⟩, rfl⟩ := h
    exact Registry.pin_new_makes.gains (hcode.symm.trans hr)
  · rename_i e
    obtain ⟨rfl, rfl⟩ := Prod.mk.inj e
    split_ifs at hn with hr
    cases hn
    obtain ⟨_, _, hop, ⟨⟩, rfl⟩ := h
    exact Catalog.hal_export_funct_gains (hr ▸ hop)
  · rename_i e
    obtain ⟨rfl, rfl⟩ := Prod.mk.inj e
    split_ifs at hn with hr
    cases hn
    obtain ⟨_, _, hop, ⟨⟩, rfl⟩ := h
    exact Catalog.hal_create_thread_gains hr hop
  · cases hn

/-- The names of the pins that were made differ, and all are listed. -/
theorem Catalog.Answered.pinNames (h : c₀.Answered rs c) (ht : c₀.reg.Tidy) :
    (rs.filterMap Op.pinMade).Nodup ∧ ∀ name ∈ rs.filterMap Op.pinMade, name ∈ c.reg.pinNames := by
  induction h with
  | start => exact ⟨List.nodup_nil, fun _ hn => absurd hn List.not_mem_nil⟩
  | @op c c' rs op r hrun hop ih =>
      obtain ⟨hn, hl⟩ := ih
      have hkeep : c.reg.KeepsPins c'.reg :=
        (Op.lawful op (hrun.tidy ht) _ _ hop).keepsPins
      rcases hmade : Op.pinMade (op, r) with _ | name
      · rw [List.filterMap_cons_none hmade]
        exact ⟨hn, fun name hm => hkeep name (hl name hm)⟩
      · obtain ⟨hnew, hnow⟩ := Op.gains hop hmade
        rw [List.filterMap_cons_some hmade]
        refine ⟨List.nodup_cons.mpr ⟨fun hm => hnew (hl name hm), hn⟩, fun name' hm => ?_⟩
        rcases List.mem_cons.mp hm with rfl | hm
        · exact hnow
        · exact hkeep name' (hl name' hm)

/-- **No name of a pin is used twice.** -/
theorem pin_names_once (hb : Boots R s₀ s₁) (h : Answered R s₁ rs s) :
    (rs.filterMap Op.pinMade).Nodup ∧ ∀ name ∈ rs.filterMap Op.pinMade,
      ∃ p, s.shm.Listed .pin p ∧ (s.shm.pin p).name = name := by
  obtain ⟨L, hinv, hrun⟩ := h.tracks hb.catalog hb.inv
  obtain ⟨hn, hl⟩ := hrun.pinNames Registry.tidy_empty
  refine ⟨hn, fun name hm => ?_⟩
  obtain ⟨p, hp, rfl⟩ := List.mem_map.mp (hl name hm)
  obtain ⟨hx, hrec⟩ := mem_tab.mp hp
  exact ⟨p.1, hinv.good.shape.listed.mpr hx, by rw [hrec]⟩

/-- The component exits, and its successor makes the pin `p`. -/
def exit_c : Op := .hal_exit 2

def pin_p : Op := .hal_pin_new (lit ['p']) .s32 69632 3

/-- The states after these. -/
def vacated : State Machine := after (exit_c.reply (rtapi serving)) exported

def succeeded : State Machine := after (init_c.reply (rtapi serving)) vacated

def pinned : State Machine := after (pin_p.reply (rtapi serving)) succeeded

/-- What they answered, the last first. -/
def pinnedReplies : List (Op × Reply) :=
  [(pin_p, .code 0), (init_c, .code 3), (exit_c, .code 0), (export_f, .code 0), (init_c, .code 2)]

theorem pinned_answered : Answered (rtapi serving) started pinnedReplies pinned := by
  have hexit : Answered (rtapi serving) started
      [(exit_c, .code 0), (export_f, .code 0), (init_c, .code 2)] vacated :=
    .op exported_answered (show exit_c.Sane from trivial) (result_eq (by decide +kernel))
  have hinit : Answered (rtapi serving) started
      [(init_c, .code 3), (exit_c, .code 0), (export_f, .code 0), (init_c, .code 2)] succeeded :=
    .op hexit (show init_c.Sane from trivial) (result_eq (by decide +kernel))
  exact .op hinit (show pin_p.Sane from trivial) (result_eq (by decide +kernel))

/-- Two pins, and the first is that of a component that has exited. -/
theorem exported_pin_names :
    (pinnedReplies.filterMap Op.pinMade).length = 2 ∧
      (pinnedReplies.filterMap Op.pinMade).Nodup ∧
      ∀ name ∈ pinnedReplies.filterMap Op.pinMade,
        ∃ p, pinned.shm.Listed .pin p ∧ (pinned.shm.pin p).name = name :=
  ⟨by decide +kernel, pin_names_once started_starts.boots pinned_answered⟩

end RTS.Hal

import Mathlib.Logic.Relation
import RealTimeSystem.System.Serving

/-!
# System — what every operation respects

On the catalog, an operation takes the registry through events one by one, and each event is *legal*
in the registry it finds: a component, a function, a parameter or a thread comes at an offset that is
not in use; what is registered belongs to a component that is not ready; what goes belongs to the
component that exits; a component becomes unready only by the two operations that say so; a function
with floating point comes only to a thread with floating point; and threads and entries are taken
away only by the operations for that.

* `Registry.Tidy` — what legal events keep.
* **`Op.lawful`** — every operation goes through legal events.
-/

namespace RTS.Hal

open RTS.Support RTS.Uspace

/-- The operation makes the component unready. -/
def Op.Unreadies (op : Op) (comp_id : Int) : Prop :=
  op = .hal_unready comp_id ∨ op = .hal_set_unready comp_id

namespace Registry

/-- A listed component that is not ready. -/
def Open (g : Registry) (x : Nat) : Prop := ∃ c, (x, c) ∈ g.comps ∧ c.ready = 0

/-- The operation is the exit of the listed component `x`. -/
def Leaving (g : Registry) (op : Op) (x : Nat) : Prop :=
  ∃ c, (x, c) ∈ g.comps ∧ op = .hal_exit c.comp_id

/-- What legal events keep. -/
structure Tidy (g : Registry) : Prop where
  comps : (keys g.comps).Nodup
  params : (keys g.params).Nodup
  functs : (keys g.functs).Nodup
  threads : (g.threads.map Slot.off).Nodup
  linked : ∀ u ∈ g.threads, ∀ e ∈ u.entries, e.2.funct_ptr ∈ keys g.functs
  fp : ∀ u ∈ g.threads, ∀ e ∈ u.entries, ∀ p ∈ g.functs, p.1 = e.2.funct_ptr →
    p.2.uses_fp ≠ 0 → u.thread.uses_fp ≠ 0

end Registry

/-- What an event of the operation respects, in the registry it finds. -/
def Event.Legal (op : Op) (g : Registry) : Event → Prop
  | .addComp x c => x ∉ keys g.comps ∧ c.ready = 0
  | .setComp x c => ∃ old, (x, old) ∈ g.comps ∧ c = { old with ready := c.ready, make := c.make } ∧
      (c.ready = 0 → old.ready = 0 ∨ op.Unreadies old.comp_id)
  | .dropComp x => g.Leaving op x
  | .addPin _ p => g.Open p.owner_ptr
  | .addParam x p => x ∉ keys g.params ∧ g.Open p.owner_ptr
  | .dropParam x => ∀ p ∈ g.params, p.1 = x → g.Leaving op p.2.owner_ptr
  | .addFunct x f => x ∉ keys g.functs ∧ g.Open f.owner_ptr
  | .dropFunct x => ∀ p ∈ g.functs, p.1 = x → g.Leaving op p.2.owner_ptr
  | .addThread t _ => t ∉ g.threads.map Slot.off
  | .setThread t th => ∀ u ∈ g.threads, u.off = t → th.uses_fp = u.thread.uses_fp
  | .dropThread _ => op = .teardown ∨ ∃ name, op = .hal_thread_delete name
  | .schedule t _ _ r => r.funct_ptr ∈ keys g.functs ∧ ∀ u ∈ g.threads, u.off = t →
      ∀ p ∈ g.functs, p.1 = r.funct_ptr → p.2.uses_fp ≠ 0 → u.thread.uses_fp ≠ 0
  | .unschedule _ _ _ => ∃ funct_name thread_name,
      op = .hal_del_funct_from_thread funct_name thread_name

/-- Legal events of the operation, one after the other. -/
def Registry.Goes (op : Op) : Registry → Registry → Prop :=
  Relation.ReflTransGen fun g g' => ∃ ev : Event, ev.Legal op g ∧ g' = g.apply ev

/-! ### Legal events keep the registry tidy -/

namespace Registry

variable {g g' : Registry} {op : Op}

theorem reschedule_offs (t : Nat) (f : List (Nat × Entry) → List (Nat × Entry)) (ss : List Slot) :
    (reschedule t f ss).map Slot.off = ss.map Slot.off := by
  rw [reschedule, off_map fun u => by split_ifs <;> rfl]

/-- Entries only go, and no function comes. -/
theorem Tidy.thinner (h : g.Tidy) (hp : g'.comps = g.comps ∧ g'.params = g.params)
    (hk : (keys g'.functs).Nodup) (hn : (g'.threads.map Slot.off).Nodup)
    (hf : ∀ p ∈ g'.functs, ∃ q ∈ g.functs, q.1 = p.1 ∧ q.2.uses_fp = p.2.uses_fp)
    (ht : ∀ u ∈ g'.threads, ∃ v ∈ g.threads, v.thread.uses_fp = u.thread.uses_fp ∧
      ∀ e ∈ u.entries, e ∈ v.entries ∧ (e.2.funct_ptr ∈ keys g.functs → e.2.funct_ptr ∈ keys g'.functs)) :
    g'.Tidy where
  comps := hp.1 ▸ h.comps
  params := hp.2 ▸ h.params
  functs := hk
  threads := hn
  linked u hu e he := by
    obtain ⟨v, hv, -, hsub⟩ := ht u hu
    exact (hsub e he).2 (h.linked v hv e (hsub e he).1)
  fp u hu e he p hp hpe hfp := by
    obtain ⟨v, hv, hth, hsub⟩ := ht u hu
    obtain ⟨q, hq, hqp, hqfp⟩ := hf p hp
    exact hth ▸ h.fp v hv e (hsub e he).1 q hq (hqp.trans hpe) (hqfp ▸ hfp)

theorem Tidy.addFunct (h : g.Tidy) {x : Nat} {f : Funct} (ok : (Event.addFunct x f).Legal op g) :
    (g.apply (.addFunct x f)).Tidy :=
  { h with
    functs := (enter_perm.map Prod.fst).nodup_iff.mpr (List.nodup_cons.mpr ⟨ok.1, h.functs⟩)
    linked := fun u hu e he => by
      obtain ⟨p, hp, hpe⟩ := List.mem_map.mp (h.linked u hu e he)
      exact List.mem_map.mpr ⟨p, mem_enter.mpr (.inr hp), hpe⟩
    fp := fun u hu e he p hp hpe => by
      rcases mem_enter.mp hp with rfl | hp
      · -- no entry calls an offset that was not in use
        have hx : x = e.2.funct_ptr := hpe
        exact absurd (hx ▸ h.linked u hu e he) ok.1
      · exact h.fp u hu e he p hp hpe }

theorem Tidy.schedule (h : g.Tidy) {t i e : Nat} {r : Entry}
    (ok : (Event.schedule t i e r).Legal op g) : (g.apply (.schedule t i e r)).Tidy := by
  have hk : keys (g.apply (.schedule t i e r)).functs = keys g.functs :=
    keys_map fun p _ => by split_ifs <;> rfl
  have hf : ∀ p ∈ (g.apply (.schedule t i e r)).functs, ∃ q ∈ g.functs,
      q.1 = p.1 ∧ q.2.uses_fp = p.2.uses_fp := fun p hp => by
    obtain ⟨q, hq, rfl⟩ := List.mem_map.mp hp
    exact ⟨q, hq, by split_ifs <;> rfl, by split_ifs <;> rfl⟩
  have ht : ∀ u ∈ (g.apply (.schedule t i e r)).threads, ∃ v ∈ g.threads,
      v.thread.uses_fp = u.thread.uses_fp ∧
        ∀ y ∈ u.entries, y ∈ v.entries ∨ (v.off = t ∧ y.2 = r) := fun u hu => by
    obtain ⟨v, hv, rfl⟩ := List.mem_map.mp hu
    refine ⟨v, hv, by split_ifs <;> rfl, fun y hy => ?_⟩
    by_cases hvt : v.off = t
    · rw [if_pos hvt] at hy
      rcases List.mem_append.mp hy with hy | hy
      · exact .inl (List.mem_of_mem_take hy)
      · rcases List.mem_cons.mp hy with rfl | hy
        · exact .inr ⟨hvt, rfl⟩
        · exact .inl (List.mem_of_mem_drop hy)
    · rw [if_neg hvt] at hy
      exact .inl hy
  exact
    { comps := h.comps
      params := h.params
      functs := by rw [hk]; exact h.functs
      threads := by
        have := reschedule_offs t (fun es => es.take i ++ (e, r) :: es.drop i) g.threads
        exact this.symm ▸ h.threads
      linked := fun u hu y hy => by
        rw [hk]
        obtain ⟨v, hv, -, hsub⟩ := ht u hu
        rcases hsub y hy with hy | ⟨-, rfl⟩
        · exact h.linked v hv y hy
        · exact ok.1
      fp := fun u hu y hy p hp hpe hfp => by
        obtain ⟨v, hv, hth, hsub⟩ := ht u hu
        obtain ⟨q, hq, hqp, hqfp⟩ := hf p hp
        rw [← hth]
        rcases hsub y hy with hy | ⟨hvt, rfl⟩
        · exact h.fp v hv y hy q hq (hqp.trans hpe) (hqfp ▸ hfp)
        · exact ok.2 v hv hvt q hq (hqp.trans hpe) (hqfp ▸ hfp) }

/-- **Legal events keep the registry tidy.** -/
theorem Tidy.apply (h : g.Tidy) {ev : Event} (ok : ev.Legal op g) : (g.apply ev).Tidy := by
  cases ev with
  | addComp x c => exact { h with comps := List.nodup_cons.mpr ⟨ok.1, h.comps⟩ }
  | setComp x c =>
      have hk : keys (g.apply (.setComp x c)).comps = keys g.comps :=
        keys_map fun p _ => by split_ifs with hp <;> simp [hp]
      exact { h with comps := by rw [hk]; exact h.comps }
  | dropComp x => exact { h with comps := h.comps.sublist (List.filter_sublist.map _) }
  | addPin x p => exact { h with }
  | addParam x p =>
      have hn : (keys (enter (NameLt Param.name) (x, p) g.params)).Nodup :=
        (enter_perm.map Prod.fst).nodup_iff.mpr (List.nodup_cons.mpr ⟨ok.1, h.params⟩)
      exact { h with params := hn }
  | dropParam x => exact { h with params := h.params.sublist (List.filter_sublist.map _) }
  | addFunct x f => exact h.addFunct ok
  | dropFunct x =>
      refine h.thinner ⟨rfl, rfl⟩ (h.functs.sublist (List.filter_sublist.map _))
        (by simpa [Registry.apply, Function.comp_def] using h.threads)
        (fun p hp => ⟨p, List.mem_of_mem_filter hp, rfl, rfl⟩) fun u hu => ?_
      obtain ⟨v, hv, rfl⟩ := List.mem_map.mp hu
      refine ⟨v, hv, rfl, fun e he => ?_⟩
      obtain ⟨he, hne⟩ := List.mem_filter.mp he
      refine ⟨he, fun hm => ?_⟩
      obtain ⟨p, hp, hpe⟩ := List.mem_map.mp hm
      exact List.mem_map.mpr ⟨p, List.mem_filter.mpr ⟨hp, by simpa [hpe] using hne⟩, hpe⟩
  | addThread t th =>
      exact
        { h with
          threads := List.nodup_cons.mpr ⟨ok, h.threads⟩
          linked := fun u hu e he => by
            rcases List.mem_cons.mp hu with rfl | hu
            · cases he
            · exact h.linked u hu e he
          fp := fun u hu e he => by
            rcases List.mem_cons.mp hu with rfl | hu
            · cases he
            · exact h.fp u hu e he }
  | setThread t th =>
      refine h.thinner ⟨rfl, rfl⟩ h.functs ?_ (fun p hp => ⟨p, hp, rfl, rfl⟩) fun u hu => ?_
      · show ((g.threads.map _).map Slot.off).Nodup
        rw [off_map fun s => by split_ifs <;> rfl]
        exact h.threads
      · obtain ⟨v, hv, rfl⟩ := List.mem_map.mp hu
        by_cases hvt : v.off = t
        · rw [if_pos hvt]
          exact ⟨v, hv, (ok v hv hvt).symm, fun e he => ⟨he, id⟩⟩
        · rw [if_neg hvt]
          exact ⟨v, hv, rfl, fun e he => ⟨he, id⟩⟩
  | dropThread t =>
      have hk : keys (g.apply (.dropThread t)).functs = keys g.functs := keys_map fun _ _ => rfl
      refine h.thinner ⟨rfl, rfl⟩ (by rw [hk]; exact h.functs)
        (h.threads.sublist (List.filter_sublist.map _)) (fun p hp => ?_) fun u hu =>
        ⟨u, List.mem_of_mem_filter hu, rfl, fun e he => ⟨he, fun hm => by rw [hk]; exact hm⟩⟩
      obtain ⟨q, hq, rfl⟩ := List.mem_map.mp hp
      exact ⟨q, hq, rfl, rfl⟩
  | schedule t i e r => exact h.schedule ok
  | unschedule t e f =>
      have hk : keys (g.apply (.unschedule t e f)).functs = keys g.functs :=
        keys_map fun p _ => by split_ifs <;> rfl
      refine h.thinner ⟨rfl, rfl⟩ (by rw [hk]; exact h.functs)
        ((reschedule_offs ..).symm ▸ h.threads) (fun p hp => ?_) fun u hu => ?_
      · obtain ⟨q, hq, rfl⟩ := List.mem_map.mp hp
        exact ⟨q, hq, by split_ifs <;> rfl, by split_ifs <;> rfl⟩
      · obtain ⟨v, hv, rfl⟩ := List.mem_map.mp hu
        refine ⟨v, hv, by split_ifs <;> rfl, fun y hy => ⟨?_, fun hm => by rw [hk]; exact hm⟩⟩
        by_cases hvt : v.off = t
        · rw [if_pos hvt] at hy
          exact List.mem_of_mem_filter hy
        · rwa [if_neg hvt] at hy

/-! ### Sequences of legal events -/

namespace Goes

theorem refl : Goes op g g := Relation.ReflTransGen.refl

theorem single {ev : Event} (ok : ev.Legal op g) : Goes op g (g.apply ev) :=
  Relation.ReflTransGen.single ⟨ev, ok, rfl⟩

theorem one {ev : Event} (ok : ev.Legal op g) : Goes op g (g.applyAll [ev]) := single ok

theorem trans {g'' : Registry} (h : Goes op g g') (h' : Goes op g' g'') : Goes op g g'' :=
  Relation.ReflTransGen.trans h h'

/-- What each event keeps, the sequence keeps. -/
theorem keeps {P : Registry → Prop} (h : Goes op g g') (ht : g.Tidy) (h₀ : P g)
    (hstep : ∀ g (ev : Event), g.Tidy → ev.Legal op g → P g → P (g.apply ev)) : g'.Tidy ∧ P g' := by
  induction h with
  | refl => exact ⟨ht, h₀⟩
  | tail _ hev ih =>
      obtain ⟨ev, ok, rfl⟩ := hev
      exact ⟨ih.1.apply ok, hstep _ ev ih.1 ok ih.2⟩

theorem tidy (h : Goes op g g') (ht : g.Tidy) : g'.Tidy :=
  (h.keeps (P := fun _ => True) ht trivial fun _ _ _ _ => id).1

/-- Events that are legal one after the other. -/
theorem all {evs : List Event} {P : Registry → Prop} (h₀ : P g)
    (h : ∀ ev ∈ evs, ∀ g, P g → ev.Legal op g ∧ P (g.apply ev)) :
    Goes op g (g.applyAll evs) ∧ P (g.applyAll evs) := by
  induction evs generalizing g with
  | nil => exact ⟨.refl, h₀⟩
  | cons ev evs ih =>
      obtain ⟨ok, h₁⟩ := h ev List.mem_cons_self g h₀
      obtain ⟨hgo, h₂⟩ := ih h₁ fun ev' h' => h ev' (List.mem_cons_of_mem _ h')
      exact ⟨(single ok).trans hgo, h₂⟩

end Goes

/-! ### The operations of the registry -/

variable {base : Addr} {lock : UInt8} {new : Nat} {comp_id : Int}

theorem mem_findComp {p : Nat × Comp} (h : g.findComp comp_id = some p) :
    p ∈ g.comps ∧ p.2.comp_id = comp_id := by
  refine ⟨List.mem_of_find?_eq_some h, ?_⟩
  have := List.find?_some h
  exact of_decide_eq_true this

/-- A check that refuses. -/
theorem goes_unless {c : Prop} [Decidable c] {r : Int} {x : Int × List Event}
    (h : ¬ c → Goes op g (g.applyAll x.2)) :
    Goes op g (g.applyAll (if c then (r, []) else x).2) := by
  split_ifs with hc
  · exact .refl
  · exact h hc

theorem goes_register {inShm : Bool} {taken : Prop} [Decidable taken] {event : Nat → Event}
    (hev : ∀ x, new ≠ 0 → g.Open x → (event x).Legal op g) :
    Goes op g (g.applyAll (g.register comp_id inShm new taken event).2) := by
  unfold register
  rcases hf : g.findComp comp_id with _ | ⟨x, c⟩
  · exact .refl
  · refine goes_unless fun _ => goes_unless fun hr => goes_unless fun hn => goes_unless fun _ => ?_
    exact .one (hev x hn ⟨c, (mem_findComp hf).1, Decidable.not_not.mp hr⟩)

theorem goes_param_new (hn : new ≠ 0 → new ∉ keys g.params) (name : CStr) (type : HalType)
    (dir : ParamDir) (data_addr : Addr) (comp_id : Int) :
    Goes op g (g.applyAll (g.param_new base lock new name type dir data_addr comp_id).2) := by
  unfold param_new
  refine goes_unless fun _ => goes_unless fun _ => goes_unless fun _ => goes_unless fun _ => ?_
  exact goes_register fun x h₀ hx => ⟨hn h₀, hx⟩

theorem goes_pin_new (name : CStr) (type : HalType) (data_ptr_addr : Addr) (comp_id : Int) :
    Goes op g (g.applyAll (g.pin_new base lock new name type data_ptr_addr comp_id).2) := by
  unfold pin_new
  refine goes_unless fun _ => goes_unless fun _ => goes_unless fun _ => ?_
  exact goes_register fun _ _ hx => hx

theorem goes_pin_newf (type : HalType) (data_ptr_addr : Addr) (comp_id : Int) (full : CStr) :
    Goes op g (g.applyAll (g.pin_newf base lock new type data_ptr_addr comp_id full).2) :=
  goes_unless fun _ => goes_pin_new ..

theorem goes_export_funct (hn : new ≠ 0 → new ∉ keys g.functs) (name : CStr) (funct arg : Addr)
    (uses_fp reentrant comp_id : Int) : Goes op g
      (g.applyAll (g.export_funct lock new name funct arg uses_fp reentrant comp_id).2) := by
  unfold export_funct
  refine goes_unless fun _ => goes_unless fun _ => ?_
  rcases hf : g.findComp comp_id with _ | ⟨x, c⟩
  · exact .refl
  · refine goes_unless fun _ => goes_unless fun hr => goes_unless fun h₀ => goes_unless fun _ => ?_
    exact .one ⟨hn h₀, c, (mem_findComp hf).1, Decidable.not_not.mp hr⟩

theorem goes_init (hn : new ≠ 0 → new ∉ keys g.comps) (old : Comp) (id : Int) (name : CStr) :
    Goes op g (g.applyAll (g.init base new old id name).2) := by
  unfold init
  refine goes_unless fun _ => goes_unless fun _ => goes_unless fun _ => goes_unless fun h₀ => ?_
  exact .one ⟨hn h₀, rfl⟩

/-- One field of a component changes. -/
theorem goes_set {f : Comp → Option Comp} (hf : ∀ old c, f old = some c → old.comp_id = comp_id →
      c = { old with ready := c.ready, make := c.make } ∧
        (c.ready = 0 → old.ready = 0 ∨ op.Unreadies old.comp_id)) :
    Goes op g (g.applyAll (g.set comp_id f).2) := by
  unfold set
  rcases hx : g.findComp comp_id with _ | ⟨x, old⟩
  · exact .refl
  · obtain ⟨hm, hid⟩ := mem_findComp hx
    dsimp only
    rcases hc : f old with _ | c
    · exact .refl
    · exact .one ⟨old, hm, hf old c hc hid⟩

/-- A component leaves with its functions and its parameters. -/
theorem goes_leave (h : g.Tidy) {x : Nat} {c : Comp} (hx : (x, c) ∈ g.comps) :
    Goes (.hal_exit c.comp_id) g (g.applyAll (g.leave x)) := by
  -- until the component goes, what there is was there before
  let P (g' : Registry) : Prop :=
    g'.comps = g.comps ∧ g'.functs ⊆ g.functs ∧ g'.params ⊆ g.params
  have hstep : ∀ ev ∈ (g.functs.filter fun p => p.2.owner_ptr = x).map (fun p => Event.dropFunct p.1) ++
      (g.params.filter fun p => p.2.owner_ptr = x).map (fun p => Event.dropParam p.1),
      ∀ g', P g' → ev.Legal (.hal_exit c.comp_id) g' ∧ P (g'.apply ev) := by
    intro ev hev g' ⟨hc, hf, hp⟩
    have hl : g'.Leaving (.hal_exit c.comp_id) x := ⟨c, hc ▸ hx, rfl⟩
    rcases List.mem_append.mp hev with hev | hev
    · obtain ⟨p, hpm, rfl⟩ := List.mem_map.mp hev
      obtain ⟨hpm, ho⟩ := List.mem_filter.mp hpm
      refine ⟨fun q hq e => ?_, hc, fun q hq => hf (List.mem_of_mem_filter hq), hp⟩
      obtain rfl := List.inj_on_of_nodup_map h.functs (hf hq) hpm e
      exact (of_decide_eq_true ho).symm ▸ hl
    · obtain ⟨p, hpm, rfl⟩ := List.mem_map.mp hev
      obtain ⟨hpm, ho⟩ := List.mem_filter.mp hpm
      refine ⟨fun q hq e => ?_, hc, hf, fun q hq => hp (List.mem_of_mem_filter hq)⟩
      obtain rfl := List.inj_on_of_nodup_map h.params (hp hq) hpm e
      exact (of_decide_eq_true ho).symm ▸ hl
  obtain ⟨hgo, hc, -, -⟩ := Goes.all (P := P) ⟨rfl, fun _ => id, fun _ => id⟩ hstep
  rw [leave, applyAll_append]
  exact hgo.trans (.one ⟨c, hc ▸ hx, rfl⟩)

theorem goes_exit (h : g.Tidy) (state : HalState) (comp_id : Int) :
    Goes (.hal_exit comp_id) g (g.applyAll (g.exit state comp_id).2) := by
  unfold exit
  refine goes_unless fun _ => ?_
  rcases hf : g.findComp comp_id with _ | ⟨x, c⟩
  · exact .refl
  · obtain ⟨hx, rfl⟩ := mem_findComp hf
    exact goes_leave h hx

theorem goes_add_funct (h : g.Tidy) (funct_name thread_name : Option CStr) (p : Int) :
    Goes op g (g.applyAll (g.add_funct lock new funct_name thread_name p).2) := by
  unfold add_funct
  refine goes_unless fun _ => ?_
  rcases hf : funct_name.bind g.findFunct with _ | ⟨f, fr⟩
  · exact .refl
  rcases ht : thread_name.bind g.findThread with _ | t
  · exact .refl
  obtain ⟨_, -, hf⟩ := Option.bind_eq_some_iff.mp hf
  obtain ⟨_, -, ht⟩ := Option.bind_eq_some_iff.mp ht
  have hf := List.mem_of_find?_eq_some hf
  have ht := List.mem_of_find?_eq_some ht
  refine goes_unless fun _ => goes_unless fun hfp => ?_
  rcases position t.entries.length p with _ | i
  · exact .refl
  · refine .one ⟨List.mem_map_of_mem hf, fun u hu hut q hq hqf hq₀ hu₀ => hfp ?_⟩
    -- the thread and the function that the check is about
    obtain rfl := List.inj_on_of_nodup_map h.threads hu ht hut
    obtain rfl := List.inj_on_of_nodup_map h.functs hq hf hqf
    exact ⟨hq₀, hu₀⟩

theorem goes_del_funct (funct_name thread_name : Option CStr) :
    Goes (.hal_del_funct_from_thread funct_name thread_name) g
      (g.applyAll (g.del_funct lock funct_name thread_name).2) := by
  unfold del_funct
  refine goes_unless fun _ => ?_
  rcases funct_name.bind g.findFunct with _ | ⟨f, fr⟩
  · exact .refl
  rcases thread_name.bind g.findThread with _ | t
  · exact .refl
  rcases he : t.entries.find? fun e => e.2.funct_ptr = f with _ | ⟨e, r⟩ <;> simp only [he]
  · exact .refl
  · have ok : (Event.unschedule t.off e f).Legal
        (.hal_del_funct_from_thread funct_name thread_name) g := ⟨_, _, rfl⟩
    exact .one ok

theorem goes_delete {state : HalState} {name : CStr} {spec : Int × List Event}
    (h : g.delete lock state name = some spec) :
    Goes (.hal_thread_delete name) g (g.applyAll spec.2) := by
  unfold delete at h
  split_ifs at h
  · cases h
    exact .refl
  · cases h
    exact .refl
  rcases hf : g.findThread name with _ | t <;> rw [hf] at h
  · cases h
    exact .refl
  · dsimp only at h
    split_ifs at h
    cases h
    have ok : (Event.dropThread t.off).Legal (.hal_thread_delete name) g := .inr ⟨_, rfl⟩
    exact .one ok

end Registry

/-! ### The operations of the catalog -/

namespace Catalog

variable {α β : Type} {op : Op} {c : Catalog}

/-- From `c`, the registry goes through legal events. -/
def Lawful (op : Op) (y : Spec Catalog α) (c : Catalog) : Prop :=
  y.Ensures c fun _ c' => Registry.Goes op c.reg c'.reg

namespace Lawful

variable {y y' : Spec Catalog α} {f : α → Spec Catalog β}

theorem pure {a : α} : Lawful op (pure a) c := Spec.Ensures.pure .refl

theorem guess {P : Catalog → α → Prop} : Lawful op (.guess P) c := Spec.Ensures.guess fun _ _ => .refl

theorem get : Lawful op .get c := guess

/-- The registry is not touched. -/
theorem modify {u : Catalog → Catalog} (h : (u c).reg = c.reg) : Lawful op (.modify u) c :=
  Spec.Ensures.modify (h ▸ .refl)

theorem perform {p : Catalog → Int × List Event}
    (h : Registry.Goes op c.reg (c.reg.applyAll (p c).2)) : Lawful op (perform p) c := by
  rintro _ _ ⟨-, rfl⟩
  exact h

theorem emit {ev : Event} (ok : ev.Legal op c.reg) : Lawful op (emit ev) c :=
  Spec.Ensures.modify (.one ok)

theorem bind (hy : Lawful op y c)
    (hf : ∀ a c', y c a c' → Registry.Goes op c.reg c'.reg → Lawful op (f a) c') :
    Lawful op (y >>= f) c := fun b c'' ⟨a, c', hya, hfa⟩ =>
  (hy a c' hya).trans (hf a c' hya (hy a c' hya) b c'' hfa)

/-- A value is chosen first. -/
theorem choose {P : Catalog → α → Prop} (h : ∀ a, P c a → Lawful op (f a) c) :
    Lawful op (.guess P >>= f) c := Spec.Ensures.bind (Spec.Ensures.guess h)

theorem read {f : Catalog → Spec Catalog β} (h : Lawful op (f c) c) : Lawful op (.get >>= f) c :=
  Spec.Ensures.bind (Spec.Ensures.get h)

theorem map {u : α → β} (h : Lawful op y c) : Lawful op (u <$> y) c := Spec.Ensures.map h

theorem ite {q : Prop} [Decidable q] (h : q → Lawful op y c) (h' : ¬ q → Lawful op y' c) :
    Lawful op (if q then y else y') c := Spec.Ensures.ite h h'

end Lawful

theorem hal_pin_newf_lawful (type : HalType) (data_ptr_addr : Addr) (comp_id : Int) (full : CStr) :
    Lawful op (hal_pin_newf type data_ptr_addr comp_id full) c :=
  .choose fun _ _ => .perform (Registry.goes_pin_newf ..)

theorem hal_param_new_lawful (name : CStr) (type : HalType) (dir : ParamDir) (data_addr : Addr)
    (comp_id : Int) : Lawful op (hal_param_new name type dir data_addr comp_id) c :=
  .choose fun _ hnew => .perform (Registry.goes_param_new hnew.resolve_left ..)

theorem hal_init_lawful (name : CStr) : Lawful op (hal_init name) c :=
  .choose fun _ _ => .choose fun _ hnew => .choose fun _ _ =>
    .perform (Registry.goes_init hnew.resolve_left ..)

theorem export_funct_pins_lawful (name : CStr) (new : Nat) (comp_id : Int) :
    Lawful op (export_funct_pins name new comp_id) c :=
  .read <| .bind (hal_pin_newf_lawful _ _ _ _) fun _ _ _ _ => .ite (fun _ => .pure) fun _ =>
    .bind (hal_param_new_lawful _ _ _ _ _) fun _ _ _ _ => .bind (hal_param_new_lawful _ _ _ _ _) fun _ _ _ _ =>
      .pure

theorem hal_export_funct_lawful (name : CStr) (funct arg : Addr) (uses_fp reentrant comp_id : Int) :
    Lawful op (hal_export_funct name funct arg uses_fp reentrant comp_id) c :=
  .choose fun _ hnew =>
    .bind (.perform (Registry.goes_export_funct hnew.resolve_left ..)) fun _ _ _ _ =>
      .ite (fun _ => .pure) fun _ => export_funct_pins_lawful _ _ _

theorem hal_ready_lawful (comp_id : Int) : Lawful op (hal_ready comp_id) c :=
  .perform <| Registry.goes_set fun old _ h _ => by
    split_ifs at h
    cases h
    exact ⟨rfl, fun h₁ => absurd h₁ Int.one_ne_zero⟩

/-- The components come and go, the threads stay. -/
theorem hal_init_threads {name : CStr} {r : Int} {c' : Catalog} (h : hal_init name c r c') :
    c'.reg.threads = c.reg.threads := by
  obtain ⟨_, _, ⟨-, rfl⟩, _, _, ⟨-, rfl⟩, _, _, ⟨-, rfl⟩, -, rfl⟩ := h
  exact Registry.init_threads

theorem create_thread_comp_lawful (h : c.reg.Tidy) {new : Nat} {th : Thread}
    (hu : (⟨new, th, []⟩ : Slot) ∈ c.reg.threads) : Lawful op (create_thread_comp new th) c := by
  refine .read <| .bind (hal_init_lawful _) fun comp_id c₁ hinit hgo => ?_
  refine .bind (.emit fun v hv hvn => ?_) fun _ _ _ _ => ?_
  · -- the record that is replaced is `th`
    rw [hal_init_threads hinit] at hv
    obtain rfl := List.inj_on_of_nodup_map h.threads hv hu hvn
    rfl
  · exact .ite (fun _ => .pure) fun _ => .bind (hal_param_new_lawful _ _ _ _ _) fun _ _ _ _ =>
      .ite (fun _ => .pure) fun _ => .bind (hal_pin_newf_lawful _ _ _ _) fun _ _ _ _ =>
        .ite (fun _ => .pure) fun _ => .bind (hal_ready_lawful _) fun _ _ _ _ => .pure

theorem hal_create_thread_lawful (h : c.reg.Tidy) (name : CStr) (period_nsec : Nat)
    (uses_fp priority : Int) :
    Lawful op (hal_create_thread name period_nsec uses_fp priority) c := by
  refine .read <| .ite (fun _ => .pure) fun _ => .ite (fun _ => .pure) fun _ =>
    .ite (fun _ => .pure) fun _ => .ite (fun _ => .pure) fun _ => .choose fun new hnew =>
      .ite (fun _ => .pure) fun h₀ => .choose fun made _ => ?_
  rcases made with _ | th
  · exact .pure
  · have ok : (Event.addThread new th).Legal op c.reg := hnew.resolve_left h₀
    refine .bind (.emit ok) fun _ c' he _ => ?_
    obtain rfl : c' = c.record [.addThread new th] := he
    exact create_thread_comp_lawful (h.apply ok) List.mem_cons_self

theorem hal_thread_delete_lawful (name : CStr) :
    Lawful (.hal_thread_delete name) (hal_thread_delete name) c := by
  refine .read ?_
  rcases hd : c.reg.delete c.lock c.state name with _ | spec
  · exact Spec.Ensures.never
  · exact .perform (Registry.goes_delete hd)

theorem teardown_lawful : Lawful .teardown teardown c := by
  refine Spec.Ensures.modify ?_
  refine (Registry.Goes.all (P := fun _ => True) trivial fun ev hev g _ => ⟨?_, trivial⟩).1
  obtain ⟨u, -, rfl⟩ := List.mem_map.mp hev
  exact .inl rfl

end Catalog

/-- **Every operation goes through legal events.** -/
theorem Op.lawful (op : Op) {c : Catalog} (h : c.reg.Tidy) : Catalog.Lawful op op.catalog c := by
  open Catalog Catalog.Lawful in
  cases op with
  | hal_init name =>
      rcases name with _ | name
      · exact pure
      · exact map (hal_init_lawful name)
  | hal_exit comp_id => exact map (perform (Registry.goes_exit h ..))
  | hal_malloc size => exact map guess
  | hal_set_constructor comp_id make =>
      exact map <| perform <| Registry.goes_set fun old _ e _ => by
        cases e
        exact ⟨rfl, .inl⟩
  | hal_ready comp_id => exact map (hal_ready_lawful comp_id)
  | hal_unready comp_id =>
      exact map <| perform <| Registry.goes_set fun old _ e hid => by
        split_ifs at e
        cases e
        exact ⟨rfl, fun _ => .inr (.inl (by rw [hid]))⟩
  | hal_set_unready comp_id =>
      exact map <| perform <| Registry.goes_set fun old _ e hid => by
        cases e
        exact ⟨rfl, fun _ => .inr (.inr (by rw [hid]))⟩
  | hal_comp_name comp_id => exact map guess
  | hal_export_funct name funct arg uses_fp reentrant comp_id =>
      exact map (hal_export_funct_lawful name funct arg uses_fp reentrant comp_id)
  | hal_create_thread name period_nsec uses_fp priority =>
      exact map (hal_create_thread_lawful h name period_nsec uses_fp priority)
  | hal_thread_delete name => exact map (hal_thread_delete_lawful name)
  | hal_add_funct_to_thread funct_name thread_name position =>
      exact map (choose fun _ _ => perform (Registry.goes_add_funct h ..))
  | hal_del_funct_from_thread funct_name thread_name =>
      exact map (perform (Registry.goes_del_funct ..))
  | hal_param_new name type dir data_addr comp_id =>
      exact map (hal_param_new_lawful name type dir data_addr comp_id)
  | hal_pin_new name type data_ptr_addr comp_id =>
      exact map (choose fun _ _ => perform (Registry.goes_pin_new ..))
  | hal_get_stats stats => exact map guess
  | hal_set_lock lock_type => exact map (bind (modify rfl) fun _ _ _ _ => pure)
  | hal_get_lock => exact map (map get)
  | hal_start_threads =>
      exact map <| read <| ite (fun _ => pure) fun _ => ite (fun _ => pure) fun _ =>
        ite (fun _ => pure) fun _ => bind (modify rfl) fun _ _ _ _ => pure
  | hal_stop_threads =>
      exact map <| read <| ite (fun _ => pure) fun _ => ite (fun _ => pure) fun _ =>
        ite (fun _ => pure) fun _ => bind (modify rfl) fun _ _ _ _ => pure
  | hal_get_state => exact map (map get)
  | teardown => exact map teardown_lawful

end RTS.Hal

import RealTimeSystem.Hal.Outside
import RealTimeSystem.System.Creating
import RealTimeSystem.System.Registrations

/-!
# System — a component is loaded, exited and loaded again

A component registers pins, parameters and functions, and exits.  `hal_exit` takes all of it along
but the pins: `free_comp_struct` does not look at the list of pins (`run_leaves`).

The second run of the same calls goes like the first one when no pin was registered (`Follows`): it
starts with the same names, with at least the structures that the first run ever had, and with no
more memory than that left; a structure that was had once is had again, from the free list.

**`hal_exit_undoes`**: the registrations are those from before, and the component can be loaded
again, just when no call registered a pin.
-/

namespace RTS.Hal

open RTS.Support RTS.Uspace

variable {σ : Type} {R : Rtapi σ} {s s' t t' : State σ} {L L' M M' : Lists} {comp_id : Int}
  {c : Nat} {call : Registration} {calls : List Registration}

/-! ### What a component that leaves takes along -/

theorem filter_enter {α : Type} {lt : α → α → Prop} [DecidableRel lt] {p : α → Bool} {a : α}
    {l : List α} (h : p a = false) : (enter lt a l).filter p = l.filter p := by
  unfold enter
  rw [List.filter_append, List.filter_cons_of_neg (by simp [h]), ← List.filter_append,
    List.takeWhile_append_dropWhile]

/-- What was registered for `x` goes with it, but for the pins. -/
theorem without_applyAll {g : Registry} {x : Nat} {evs : List Event} (h : ∀ ev ∈ evs, ev.For x) :
    ((g.applyAll evs).without x).comps = (g.without x).comps ∧
      ((g.applyAll evs).without x).params = (g.without x).params ∧
      ((g.applyAll evs).without x).functs = (g.without x).functs := by
  induction evs generalizing g with
  | nil => exact ⟨rfl, rfl, rfl⟩
  | cons ev evs ih =>
      obtain ⟨h₁, h₂, h₃⟩ := ih (g := g.apply ev) fun ev' h' => h ev' (List.mem_cons_of_mem _ h')
      have hev := h ev (by simp)
      rw [Registry.applyAll_cons, h₁, h₂, h₃]
      cases ev with
      | addPin y p => exact ⟨rfl, rfl, rfl⟩
      | addParam y p =>
          have ho : p.owner_ptr = x := hev
          exact ⟨rfl, filter_enter (by simp [ho]), rfl⟩
      | addFunct y f =>
          have ho : f.owner_ptr = x := hev
          exact ⟨rfl, rfl, filter_enter (by simp [ho])⟩
      | _ => exact hev.elim

/-! ### One run -/

namespace Registration

theorem pinless_cons {r : Int} (hrun : call.run comp_id s = .ok r s') :
    Pinless comp_id (call :: calls) s ↔ ¬ call.Pins s ∧ Pinless comp_id calls s' := by
  refine and_congr_right fun _ => ⟨fun h => h r s' hrun, fun h r' s'' hrun' => ?_⟩
  obtain ⟨-, rfl⟩ : r = r' ∧ s' = s'' := by
    have := hrun.symm.trans hrun'
    injection this with h₁ h₂
    exact ⟨h₁, h₂⟩
  exact h

end Registration

/-- Registering keeps the component. -/
theorem Registry.Loading.applyAll {g : Registry} {evs : List Event} (hc : g.Loading comp_id c)
    (hevs : ∀ ev ∈ evs, ev.For c) : (g.applyAll evs).Loading comp_id c := by
  obtain ⟨comp, hf, hr, hu⟩ := hc
  refine ⟨comp, ?_, hr, hu⟩
  rw [findComp, (applyAll_for fun ev hev => ⟨c, hevs ev hev⟩).1]
  exact hf

theorem Registry.Loading.held {evs : List Event} (hc : (view s.shm L).Loading comp_id c)
    (he : Enrolled s L comp_id evs s' L') : ∀ ev ∈ evs, ev.For c := by
  intro ev hev
  obtain ⟨comp, hf, -, -⟩ := hc
  obtain ⟨c', comp', hf', hfor⟩ := he.held ev hev
  obtain ⟨rfl, -⟩ := Prod.mk.inj (Option.some.inj (hf.symm.trans hf'))
  exact hfor

theorem Registry.Loading.enrolled {evs : List Event} (hc : (view s.shm L).Loading comp_id c)
    (he : Enrolled s L comp_id evs s' L') : (view s'.shm L').Loading comp_id c := by
  rw [he.moved.events]
  exact hc.applyAll (hc.held he)

theorem pins_unique {m : Segment} (h : Shape m.arena L) (h' : Shape m.arena L') :
    (view m L').pins = (view m L).pins := (h.table .pin m.pin).unique (h'.table .pin m.pin)

namespace Registration

/-- The pins after a call that registers none. -/
theorem pins_kept (h : Inv s L) (hc : (view s.shm L).Loading comp_id c) (hno : ¬ call.Pins s) :
    ((view s.shm L).applyAll (call.specOf s L comp_id).2).pins = (view s.shm L).pins := by
  rcases inserts_iff call h hc with ⟨hi, e⟩ | ⟨-, e⟩
  · rw [e]
    cases call with
    | hal_pin_new name type data_ptr_addr => exact absurd ⟨hi, trivial⟩ hno
    | hal_param_new name type dir data_addr => rfl
    | hal_export_funct name funct arg uses_fp reentrant => rfl
  · rw [e]
    rfl

/-- A call does not change what the process can read. -/
theorem run_reads (R : Rtapi σ) (call : Registration) (comp_id : Int) :
    Along SameReads (call.run comp_id : Prog σ Int) := by
  have hkeeps := (SameReads.outer (R := R)).keeps
  cases call with
  | hal_pin_new name type data_ptr_addr => exact hkeeps.hal_pin_new _ _ _ _
  | hal_param_new name type dir data_addr => exact hkeeps.hal_param_new _ _ _ _ _
  | hal_export_funct name funct arg uses_fp reentrant => exact hkeeps.hal_export_funct _ _ _ _ _ _

theorem runAll_reads (R : Rtapi σ) (calls : List Registration) (comp_id : Int) :
    Along SameReads (runAll comp_id calls : Prog σ (List Int)) := by
  induction calls with
  | nil => exact .pure
  | cons call calls ih => exact .bind (run_reads R call comp_id) fun _ => .bind ih fun _ => .pure

/-- One call: the pins are as before just when it registers none. -/
theorem run_step (h : Inv s L) (hc : (view s.shm L).Loading comp_id c) :
    Wp (call.run comp_id) s (fun _ s' => ∃ evs L', Enrolled s L comp_id evs s' L' ∧
      (call.Pins s → (view s.shm L).pins.length < (view s'.shm L').pins.length) ∧
      (¬ call.Pins s → (view s'.shm L').pins = (view s.shm L).pins)) fun _ _ => True := by
  refine (run_enrolled h call comp_id).with_eq.mono (fun r s' ⟨hrun, evs, L', he⟩ => ?_)
    fun _ _ => id
  refine ⟨evs, L', he, fun hp => ?_, fun hno => ?_⟩
  · obtain ⟨L₁, h₁, hlen⟩ := (run_pins h hc hp).of_ok hrun
    rw [pins_unique h₁.good.shape he.moved.inv.good.shape, hlen]
    exact Nat.lt_succ_self _
  · obtain ⟨-, ⟨-, L₁, hm, -⟩, -⟩ := (run_spec h hc hno).of_ok hrun
    rw [pins_unique hm.inv.good.shape he.moved.inv.good.shape, hm.events]
    exact pins_kept h hc hno

/-- **All the calls.**  Only things of the component come; the pins are as before just when none is
registered. -/
theorem runAll_enrolled (h : Inv s L) (hc : (view s.shm L).Loading comp_id c) :
    Wp (runAll comp_id calls) s (fun _ s' => ∃ evs L', Enrolled s L comp_id evs s' L' ∧
      (Pinless comp_id calls s ∧ (view s'.shm L').pins = (view s.shm L).pins ∨
        ¬ Pinless comp_id calls s ∧
          (view s.shm L).pins.length < (view s'.shm L').pins.length)) fun _ _ => True := by
  induction calls generalizing s L with
  | nil => exact ⟨[], L, .refl h, .inl ⟨trivial, rfl⟩⟩
  | cons call calls ih =>
      unfold runAll
      rw [wp_bind]
      refine (run_step h hc).with_eq.mono (fun r s₁ ⟨hrun, evs, L₁, he, hp, hno⟩ => ?_)
        fun _ _ => id
      rw [wp_bind]
      refine (ih he.moved.inv (hc.enrolled he)).mono (fun rs s₂ ⟨evs', L₂, he', hpins⟩ => ?_)
        fun _ _ => id
      refine ⟨evs ++ evs', L₂, he.trans he', ?_⟩
      rw [pinless_cons hrun]
      by_cases hpin : call.Pins s
      · refine .inr ⟨fun hn => hn.1 hpin, ?_⟩
        have hlt := hp hpin
        rcases hpins with ⟨-, hsame⟩ | ⟨-, hmore⟩
        · rwa [hsame]
        · exact hlt.trans hmore
      · rw [← hno hpin]
        rcases hpins with ⟨hn, hsame⟩ | ⟨hn, hmore⟩
        · exact .inl ⟨⟨hpin, hn⟩, hsame⟩
        · exact .inr ⟨fun h => hn h.2, hmore⟩

end Registration

/-! ### Two runs -/

/-- A second run in `t`, where the first one was in `s`: the same names are taken.  The memory of
the second run is what is left of `e`, with which the first one ends. -/
structure Follows (s : State σ) (L : Lists) (comp_id : Int) (c : Nat) (t : State σ) (M : Lists)
    (comp_id' : Int) (d : Nat) (e : Arena) : Prop where
  inv : Inv s L
  inv' : Inv t M
  loading : (view s.shm L).Loading comp_id c
  loading' : (view t.shm M).Loading comp_id' d
  base : t.hal_shmem_base = s.hal_shmem_base
  lock : t.shm.lock = s.shm.lock
  readable : t.readable = s.readable
  names : ∀ k, (view t.shm M).names k = (view s.shm L).names k
  ahead : Grown s.shm.arena e
  behind : Grown e t.shm.arena

namespace Follows

variable {comp_id' : Int} {d : Nat} {e : Arena} {r : Int} {rs : List Int} {k : Kind}

section
variable (hf : Follows s L comp_id c t M comp_id' d e)
include hf

/-- The lists have the same lengths. -/
theorem length (hk : Named k) : (M.act k).length = (L.act k).length := by
  rw [← names_length (m := t.shm) hk, ← names_length (m := s.shm) hk, hf.names]

theorem passes : call.Passes t.hal_shmem_base t.shm.lock ↔
    call.Passes s.hal_shmem_base s.shm.lock := by
  rw [hf.base, hf.lock]

/-- A call can read its cell in both runs or in neither. -/
theorem reads : call.Reads t ↔ call.Reads s := by
  cases call with
  | hal_pin_new name type data_ptr_addr =>
      show t.Reads data_ptr_addr ↔ s.Reads data_ptr_addr
      unfold State.Reads
      rw [hf.base, hf.readable]
  | _ => exact Iff.rfl

/-- **A call gets a structure in both runs or in neither.** -/
theorem room (hno : ¬ call.Pins s) (hrun : call.run comp_id s = .ok r s')
    (hg : Grown s'.shm.arena e) (hp : call.Passes s.hal_shmem_base s.shm.lock) :
    t.shm.arena.Full call.kind ↔ s.shm.arena.Full call.kind := by
  have hlen := hf.length call.kind_named
  constructor
  · intro ht
    by_contra hs
    -- the first run had the structure, and it is in use or idle
    have hcarved := (Registration.run_carves hf.inv hf.loading hno hp hs).of_ok hrun
    have hle := Nat.le_trans (hg.carved call.kind) (hf.behind.carved call.kind)
    exact hf.inv'.good.shape.not_full call.kind_ne_entry (hf.inv'.idle _) (by omega) ht
  · exact hf.inv.good.shape.full_of_grown hf.inv'.good.shape call.kind_ne_entry (hf.inv.idle _)
      (hf.inv'.idle _) (hf.ahead.trans hf.behind) hlen.ge

/-- A call inserts in both runs or in neither, and returns the same. -/
theorem spec (hno : ¬ call.Pins s) (hrun : call.run comp_id s = .ok r s')
    (hg : Grown s'.shm.arena e) :
    (call.Inserts t ↔ call.Inserts s) ∧
      (call.specOf t M comp_id').1 = (call.specOf s L comp_id).1 := by
  rw [Registration.inserts_names hf.inv, Registration.inserts_names hf.inv', hf.passes, hf.names]
  by_cases hp : call.Passes s.hal_shmem_base s.shm.lock
  · have hroom := hf.room hno hrun hg hp
    refine ⟨by rw [hroom], ?_⟩
    rw [Registration.specOf_passed hf.inv hp hf.loading,
      Registration.specOf_passed hf.inv' (hf.passes.mpr hp) hf.loading', hf.names]
    simp only [hroom]
    split_ifs <;> rfl
  · obtain ⟨err, herr⟩ := Registration.spec_refused hp
    refine ⟨iff_of_false (fun h => hp h.1) fun h => hp h.1, ?_⟩
    rw [Registration.specOf, Registration.specOf, hf.base, hf.lock, herr, herr]

/-- The names after the call. -/
theorem names_after (hno : ¬ call.Pins s) (hrun : call.run comp_id s = .ok r s')
    (hg : Grown s'.shm.arena e) (k : Kind) :
    ((view t.shm M).applyAll (call.specOf t M comp_id').2).names k =
      ((view s.shm L).applyAll (call.specOf s L comp_id).2).names k := by
  have hiff := (hf.spec hno hrun hg).1
  rcases Registration.inserts_iff call hf.inv hf.loading with ⟨hi, hs⟩ | ⟨hi, hs⟩
  · rcases Registration.inserts_iff call hf.inv' hf.loading' with ⟨-, ht⟩ | ⟨hi', -⟩
    · simp only [hs, ht, Registry.applyAll_cons, Registry.applyAll_nil, Registration.names_event,
        hf.names]
    · exact absurd (hiff.mpr hi) hi'
  · rcases Registration.inserts_iff call hf.inv' hf.loading' with ⟨hi', -⟩ | ⟨-, ht⟩
    · exact absurd (hiff.mp hi') hi
    · rw [hs, ht]
      exact hf.names k

/-- **No pin is registered in the second run either.** -/
theorem unpinned (hno : ¬ call.Pins s) (hrun : call.run comp_id s = .ok r s')
    (hg : Grown s'.shm.arena e) : ¬ call.Pins t := by
  rintro ⟨hi', hrest⟩
  have hi : call.Inserts s := (hf.spec hno hrun hg).1.mp hi'
  cases call with
  | hal_pin_new name type data_ptr_addr => exact hno ⟨hi, trivial⟩
  | hal_param_new name type dir data_addr => exact hrest
  | hal_export_funct name funct arg uses_fp reentrant =>
      have hrest : PinFits t name := hrest
      obtain ⟨-, ⟨-, L', hm, -⟩, hpinned⟩ :=
        (Registration.run_spec hf.inv hf.loading hno).of_ok hrun
      -- the name of the pin was free in the first run, so that the memory was out
      have hfull := hpinned hi ⟨hrest.short, fun p hp e => by
        have hmem := (mem_names (k := .pin) hf.inv.good.shape (by decide)).mpr ⟨p, hp, e⟩
        rw [← hf.names] at hmem
        obtain ⟨q, hq, e'⟩ :=
          (mem_names hf.inv'.good.shape (by decide)).mp hmem
        exact hrest.free q hq e'⟩
      have hpins : (L'.act .pin).length = (M.act .pin).length := by
        rw [hf.length (by decide)]
        have := congrArg List.length (Registration.pins_kept hf.inv hf.loading hno)
        rw [← hm.events] at this
        simpa [view, tab] using this
      have hout : t.shm.arena.Full .pin := hm.inv.good.shape.full_of_grown hf.inv'.good.shape
        (by decide) (hm.inv.idle _) (hf.inv'.idle _) (hg.trans hf.behind) hpins.le hfull
      exact hrest.room (hout.alloc hf.inv'.good.shape (by decide))

/-- **One call.** -/
theorem step (R : Rtapi σ) (hno : ¬ call.Pins s) (hrun : call.run comp_id s = .ok r s')
    (hg : Grown s'.shm.arena e) : ∃ L' t' M', call.run comp_id' t = .ok r t' ∧
      Follows s' L' comp_id c t' M' comp_id' d e := by
  obtain ⟨hread, ⟨hr, L', hm, -⟩, -⟩ := (Registration.run_spec hf.inv hf.loading hno).of_ok hrun
  have hspec := Registration.run_spec hf.inv' hf.loading' (hf.unpinned hno hrun hg)
  obtain ⟨r', t', hrun', -, ⟨hr', M', hm', hs'⟩, -⟩ :=
    (show Returns _ _ _ from hspec.mono (fun _ _ => id) fun _ _ hn => hn (hf.reads.mpr hread)).exists_ok
  have hcode : r' = r := by rw [hr', hr, (hf.spec hno hrun hg).2]
  refine ⟨L', t', M', hcode ▸ hrun', ?_⟩
  exact
    { inv := hm.inv
      inv' := hm'.inv
      loading := by
        rw [hm.events]
        exact hf.loading.applyAll (Registration.specOf_for hf.inv hf.loading)
      loading' := by
        rw [hm'.events]
        exact hf.loading'.applyAll (Registration.specOf_for hf.inv' hf.loading')
      base := by rw [hm'.base, hm.base, hf.base]
      lock := by rw [hm'.lock, hm.lock, hf.lock]
      readable := by
        rw [show t'.readable = t.readable from (Registration.run_reads R _ _).of_ok hrun',
          show s'.readable = s.readable from (Registration.run_reads R _ _).of_ok hrun, hf.readable]
      names := fun k => by
        rw [hm'.events, hm.events]
        exact hf.names_after hno hrun hg k
      ahead := hg
      behind := hf.behind.trans hs'.grown }

end

/-- **All the calls**, by induction on them. -/
theorem run (R : Rtapi σ) (hf : Follows s L comp_id c t M comp_id' d e)
    (hno : Registration.Pinless comp_id calls s)
    (hrun : Registration.runAll comp_id calls s = .ok rs s') (hg : Grown s'.shm.arena e) :
    ∃ t', Registration.runAll comp_id' calls t = .ok rs t' := by
  induction calls generalizing s L t M rs with
  | nil =>
      cases hrun
      exact ⟨t, rfl⟩
  | cons call calls ih =>
      obtain ⟨r, s₁, hcall, hrest⟩ := bind_eq_ok.mp hrun
      obtain ⟨rs₁, s₂, hcalls, hret⟩ := bind_eq_ok.mp hrest
      cases hret
      obtain ⟨hpin, hno⟩ := (Registration.pinless_cons hcall).mp hno
      -- what the rest of the first run takes is there for this call too
      obtain ⟨evs, L₁, he, -⟩ := (Registration.run_step hf.inv hf.loading).of_ok hcall
      obtain ⟨evs', L₂, he', -⟩ := (Registration.runAll_enrolled he.moved.inv
        (hf.loading.enrolled he)).of_ok hcalls
      obtain ⟨L', t₁, M', hcall', hf'⟩ := hf.step R hpin hcall (he'.still.grown.trans hg)
      obtain ⟨t₂, hcalls'⟩ := ih hf' hno hcalls
      exact ⟨t₂, bind_eq_ok.mpr ⟨r, t₁, hcall', bind_eq_ok.mpr ⟨rs₁, t₂, hcalls', rfl⟩⟩⟩

end Follows

/-! ### Loading and exiting -/

/-- A new component is being loaded. -/
theorem hal_init_loads (h : Inv s L) {name : CStr} {r : Int}
    (hrun : hal_init R (some name) s = .ok r s') (hr : ¬ r < 0) :
    Accepts R s name ∧ Quiet s s' ∧
      ∃ x comp L', Moved s L [.addComp x comp] s' L' ∧ (view s'.shm L').Loading r x := by
  obtain ⟨-, -, hq, -⟩ := (hal_init_spec R h name).of_ok hrun
  obtain ⟨L', ⟨-, hneg, -⟩ | ⟨hacc, -, -, x, comp, hm, hid, hready, htype⟩⟩ :=
    (hal_init_found h name).of_ok hrun
  · exact absurd hneg hr
  refine ⟨hacc, hq, x, comp, L', hm, comp, ?_, hready, htype ▸ (by decide)⟩
  rw [← hid]
  exact Registry.findComp_head (by rw [hm.events]; rfl)

/-- `hal_exit` of a component that is being loaded. -/
theorem hal_exit_without (h : Inv s L) (hd : s.shm.state ≠ .destroyed)
    (hc : (view s.shm L).Loading comp_id c) :
    Returns (hal_exit R comp_id) s fun _ s' => Quiet s s' ∧ ∃ evs L', Moved s L evs s' L' ∧
      view s'.shm L' = (view s.shm L).without c := by
  obtain ⟨comp, hf, -, -⟩ := hc
  refine (hal_exit_spec R h comp_id).mono fun r s' ⟨_, ⟨L', hm⟩, hq, _⟩ => ⟨hq, _, L', hm, ?_⟩
  have hparams : (keys (view s.shm L).params).Nodup := by
    rw [view, keys_tab]
    exact (h.good.shape.rep .param).used.nodup
  rw [hm.events, Registry.exit, if_neg hd, hf]
  exact Registry.applyAll_leave h.good.sound hparams c

/-- What was there before a component came does not go with it. -/
theorem without_addComp {g : Registry} (hg : g.Sound) {x : Nat} (comp : Comp)
    (hx : x ∉ keys g.comps) :
    ((g.apply (.addComp x comp)).without x).comps = g.comps ∧
      ((g.apply (.addComp x comp)).without x).params = g.params ∧
      ((g.apply (.addComp x comp)).without x).functs = g.functs := by
  have hcomps : g.comps.filter (fun p => p.1 ≠ x) = g.comps :=
      List.filter_eq_self.mpr fun p hp => by
    simpa using fun e : p.1 = x => hx (e ▸ List.mem_map_of_mem hp)
  refine ⟨?_, List.filter_eq_self.mpr fun p hp => ?_, List.filter_eq_self.mpr fun p hp => ?_⟩
  · show ((x, comp) :: g.comps).filter (fun p => p.1 ≠ x) = g.comps
    rw [List.filter_cons_of_neg (by simp), hcomps]
  · simpa using fun e : p.2.owner_ptr = x => hx (e ▸ hg.owned_params p hp)
  · simpa using fun e : p.2.owner_ptr = x => hx (e ▸ hg.owned_functs p hp)

/-- The lists of components, pins, parameters and functions are the same. -/
def Restored (m m' : Segment) : Prop :=
  ∃ g g', m.Holds g ∧ m'.Holds g' ∧ g'.comps = g.comps ∧ g'.pins = g.pins ∧ g'.params = g.params ∧
    g'.functs = g.functs

/-- The component can be loaded again, and its calls return the same. -/
def Repeats (R : Rtapi σ) (name : CStr) (calls : List Registration) (rs : List Int) (s : State σ) :
    Prop :=
  ∃ comp_id s₁ s₂, hal_init R (some name) s = .ok comp_id s₁ ∧ ¬ comp_id < 0 ∧
    Registration.runAll comp_id calls s₁ = .ok rs s₂

/-- The component `x` was loaded in `s`, in `s₁` it starts to register things, and in `s'` it has
gone. -/
structure Unloaded (R : Rtapi σ) (s : State σ) (L : Lists) (name : CStr) (comp_id : Int)
    (calls : List Registration) (s₁ : State σ) (L₁ : Lists) (x : Nat) (s' : State σ) (L' : Lists) :
    Prop where
  before : Inv s L
  accepts : Accepts R s name
  loading : Inv s₁ L₁
  loaded : (view s₁.shm L₁).Loading comp_id x
  added : ∃ comp, view s₁.shm L₁ = (view s.shm L).apply (.addComp x comp)
  gone : Inv s' L'
  grown : Grown s₁.shm.arena s'.shm.arena
  base : s'.hal_shmem_base = s₁.hal_shmem_base
  lock : s'.shm.lock = s₁.shm.lock
  readable : s'.readable = s₁.readable
  comps : (view s'.shm L').comps = (view s.shm L).comps
  params : (view s'.shm L').params = (view s.shm L).params
  functs : (view s'.shm L').functs = (view s.shm L).functs
  pins : Registration.Pinless comp_id calls s₁ ∧ (view s'.shm L').pins = (view s.shm L).pins ∨
    ¬ Registration.Pinless comp_id calls s₁ ∧
      (view s.shm L).pins.length < (view s'.shm L').pins.length

theorem unloaded (h : Reachable R s) {name : CStr} {s₁ s₂ : State σ} {rs : List Int} {r : Int}
    (hinit : hal_init R (some name) s = .ok comp_id s₁) (hid : ¬ comp_id < 0)
    (hrun : Registration.runAll comp_id calls s₁ = .ok rs s₂)
    (hexit : hal_exit R comp_id s₂ = .ok r s') :
    ∃ L L₁ x L', Unloaded R s L name comp_id calls s₁ L₁ x s' L' ∧
      Grown s₂.shm.arena s'.shm.arena := by
  obtain ⟨L, hinv⟩ := h.inv
  obtain ⟨hacc, hq, x, comp, L₁, hm, hload⟩ := hal_init_loads hinv hinit hid
  obtain ⟨evs, L₂, he, hpins⟩ := (Registration.runAll_enrolled hm.inv hload).of_ok hrun
  have hd : s₂.shm.state ≠ .destroyed := by
    rw [he.moved.state, hm.state]
    exact h.not_destroyed
  obtain ⟨hq', evs', L', hm', hwithout⟩ :=
    (hal_exit_without he.moved.inv hd (hload.enrolled he)).of_ok hexit
  have hx : x ∉ keys (view s.shm L).comps := by
    have hkeys := hm.inv.good.sound.comps_keys
    rw [hm.events] at hkeys
    exact (List.nodup_cons.mp hkeys).1
  obtain ⟨h₁, h₂, h₃⟩ := without_applyAll (g := view s₁.shm L₁) (hload.held he)
  obtain ⟨h₄, h₅, h₆⟩ := without_addComp hinv.good.sound comp hx
  rw [← he.moved.events, ← hwithout] at h₁ h₂ h₃
  rw [← Registry.applyAll_nil (Registry.apply _ _), ← Registry.applyAll_cons,
    ← hm.events] at h₄ h₅ h₆
  have hpins₁ : (view s₁.shm L₁).pins = (view s.shm L).pins := by
    rw [hm.events]
    rfl
  have hpins' : (view s'.shm L').pins = (view s₂.shm L₂).pins := by
    rw [hwithout]
    rfl
  refine ⟨L, L₁, x, L', ?_, hq'.grown⟩
  exact
    { before := hinv
      accepts := hacc
      loading := hm.inv
      loaded := hload
      added := ⟨comp, hm.events⟩
      gone := hm'.inv
      grown := he.still.grown.trans hq'.grown
      base := by rw [hm'.base, he.moved.base]
      lock := by rw [hm'.lock, he.moved.lock]
      readable := (show s'.readable = s₂.readable from
        (SameReads.outer.hal_exit comp_id).of_ok hexit).trans
          ((Registration.runAll_reads R calls comp_id).of_ok hrun)
      comps := h₁.trans h₄
      params := h₂.trans h₅
      functs := h₃.trans h₆
      pins := by rwa [hpins', ← hpins₁] }

namespace Unloaded

variable {name : CStr} {s₁ : State σ} {L₁ : Lists} {x : Nat}

/-- **The pins tell.** -/
theorem restored_iff (hu : Unloaded R s L name comp_id calls s₁ L₁ x s' L') :
    Restored s.shm s'.shm ↔ Registration.Pinless comp_id calls s₁ := by
  constructor
  · rintro ⟨g, g', hg, hg', -, hpins, -, -⟩
    have hp := hg.pins.unique hu.before.good.shape.holds.pins
    have hp' := hg'.pins.unique hu.gone.good.shape.holds.pins
    rcases hu.pins with ⟨hno, -⟩ | ⟨-, hlt⟩
    · exact hno
    · rw [hp, hp', hpins] at hlt
      exact absurd hlt (Nat.lt_irrefl _)
  · intro hno
    rcases hu.pins with ⟨-, hsame⟩ | ⟨hpin, -⟩
    · exact ⟨_, _, hu.before.good.shape.holds, hu.gone.good.shape.holds, hu.comps, hsame, hu.params,
        hu.functs⟩
    · exact absurd hno hpin

/-- The component is accepted again, if RTAPI takes it. -/
theorem accepts_again (hu : Unloaded R s L name comp_id calls s₁ L₁ x s' L')
    (hid : ¬ (R.init (rtapi_name name) s'.rt).1 < 0) : Accepts R s' name := by
  obtain ⟨hshort, -, hfree, -⟩ := hu.accepts
  have hact : L'.act .comp = L.act .comp := by
    have := congrArg keys hu.comps
    simpa only [view, keys_tab] using this
  refine ⟨hshort, hid, ?_, ?_⟩
  · rw [hu.before.good.shape.comp_free] at hfree
    rw [hu.gone.good.shape.comp_free]
    intro y hy
    have hmem : (y, s'.shm.comp y) ∈ (view s'.shm L').comps :=
      mem_tab.mpr ⟨hu.gone.good.shape.listed.mp hy, rfl⟩
    rw [hu.comps] at hmem
    obtain ⟨hy', e⟩ := mem_tab.mp hmem
    exact (congrArg Comp.name e : (s'.shm.comp y).name = _) ▸
      hfree y (hu.before.good.shape.listed.mpr hy')
  · -- the structure of the component is there
    refine hu.gone.good.shape.not_full (by decide) (hu.gone.idle _) ?_
    obtain ⟨comp, hadd⟩ := hu.added
    have hlen : (L₁.act .comp).length = (L.act .comp).length + 1 := by
      have := congrArg (fun g : Registry => g.comps.length) hadd
      simpa [view, tab, Registry.apply] using this
    have hle := hu.loading.good.shape.act_le (k := .comp) (by decide)
    have hcarved := hu.grown.carved .comp
    rw [hact]
    omega

/-- **The second run returns the same.** -/
theorem repeats {s₂ : State σ} {rs : List Int}
    (hu : Unloaded R s L name comp_id calls s₁ L₁ x s' L')
    (hrun : Registration.runAll comp_id calls s₁ = .ok rs s₂)
    (hg : Grown s₂.shm.arena s'.shm.arena) (hno : Registration.Pinless comp_id calls s₁)
    (hid : ¬ (R.init (rtapi_name name) s'.rt).1 < 0) : Repeats R name calls rs s' := by
  obtain ⟨r, t, hinit, M₀, ⟨hna, -⟩ | ⟨-, hr, -⟩⟩ :=
    (hal_init_found (R := R) hu.gone name).exists_ok
  · exact absurd (hu.accepts_again hid) hna
  obtain ⟨-, hq, d, comp', M, hm, hload⟩ := hal_init_loads hu.gone hinit hr
  obtain ⟨comp, hadd⟩ := hu.added
  have hpins : (view s'.shm L').pins = (view s.shm L).pins := by
    rcases hu.pins with ⟨-, hsame⟩ | ⟨hpin, -⟩
    · exact hsame
    · exact absurd hno hpin
  have hf : Follows s₁ L₁ comp_id x t M r d s'.shm.arena :=
    { inv := hu.loading
      inv' := hm.inv
      loading := hu.loaded
      loading' := hload
      base := hm.base.trans hu.base
      lock := hm.lock.trans hu.lock
      readable := (show t.readable = s'.readable from (SameReads.outer.keeps.hal_init
        (fun s _ => SameReads.hal_init_lib s) _).of_ok hinit).trans hu.readable
      names := fun k => by
        rw [hm.events, hadd]
        cases k with
        | pin => exact congrArg (List.map fun p => p.2.name) hpins
        | param => exact congrArg (List.map fun p => p.2.name) hu.params
        | funct => exact congrArg (List.map fun p => p.2.name) hu.functs
        | _ => rfl
      ahead := hu.grown
      behind := hq.grown }
  obtain ⟨t', hrun'⟩ := hf.run R hno hrun hg
  exact ⟨r, t, t', hinit, hr, hrun'⟩

end Unloaded

/-- **`hal_exit` undoes a component** that registers no pin, and no other; it can be loaded again if
RTAPI takes it once more. -/
theorem hal_exit_undoes (h : Reachable R s) {name : CStr} {s₁ s₂ : State σ} {rs : List Int}
    (hinit : hal_init R (some name) s = .ok comp_id s₁) (hid : ¬ comp_id < 0)
    (hrun : Registration.runAll comp_id calls s₁ = .ok rs s₂)
    (hexit : hal_exit R comp_id s₂ = .ok 0 s') :
    Restored s.shm s'.shm ∧ Repeats R name calls rs s' ↔
      Registration.Pinless comp_id calls s₁ ∧ ¬ (R.init (rtapi_name name) s'.rt).1 < 0 := by
  obtain ⟨L, L₁, x, L', hu, hg⟩ := unloaded h hinit hid hrun hexit
  rw [hu.restored_iff]
  refine and_congr_right fun hno => ⟨?_, hu.repeats hrun hg hno⟩
  rintro ⟨r, t, t', hinit', hr, -⟩
  exact (hal_init_loads hu.gone hinit' hr).1.2.1

/-! ### A component of a new HAL -/

/-- The component 2 is loaded, -/
def loaded : State Machine := after (hal_init (rtapi serving) (some (lit ['c']))) started

/-- makes the calls, -/
def enlisted (calls : List Registration) : State Machine :=
  after (Registration.runAll 2 calls) loaded

/-- and exits. -/
def exited (calls : List Registration) : State Machine :=
  after (hal_exit (rtapi serving) 2) (enlisted calls)

theorem started_reachable : Reachable (rtapi serving) started :=
  ⟨_, _, started_starts.boots, .start⟩

theorem loaded_eq : hal_init (rtapi serving) (some (lit ['c'])) started = .ok 2 loaded :=
  result_eq (by decide +kernel)

/-- A parameter, and a function whose name is too long for its pin. -/
def pinlessCalls : List Registration :=
  [.hal_param_new (lit ['p']) .s32 .rw 66536, .hal_export_funct unpinnedName 8 16 0 1]

theorem hal_exit_undoes_sample : ∃ s₂ s',
    Registration.runAll 2 pinlessCalls loaded = .ok [0, -EINVAL] s₂ ∧
      hal_exit (rtapi serving) 2 s₂ = .ok 0 s' ∧ Restored started.shm s'.shm ∧
      Repeats (rtapi serving) (lit ['c']) pinlessCalls [0, -EINVAL] s' := by
  have hrun : Registration.runAll 2 pinlessCalls loaded =
      .ok [0, -EINVAL] (enlisted pinlessCalls) := result_eq (by decide +kernel)
  have hexit : hal_exit (rtapi serving) 2 (enlisted pinlessCalls) = .ok 0 (exited pinlessCalls) :=
    result_eq (by decide +kernel)
  refine ⟨_, _, hrun, hexit,
    (hal_exit_undoes started_reachable loaded_eq (by decide) hrun hexit).mpr
      ⟨?_, by decide +kernel⟩⟩
  exact ⟨fun h => h.2, fun _ _ _ => ⟨fun h => h.2.short (by decide), fun _ _ _ => trivial⟩⟩

/-- A pin. -/
def pinCalls : List Registration := [.hal_pin_new (lit ['p']) .bit 66536]

/-- The pin is left, and the component cannot be loaded again: the name of the pin is taken. -/
theorem pin_left : Reachable (rtapi serving) started ∧ ∃ s₁ s₂ s',
    hal_init (rtapi serving) (some (lit ['c'])) started = .ok 2 s₁ ∧
      Registration.runAll 2 pinCalls s₁ = .ok [0] s₂ ∧ hal_exit (rtapi serving) 2 s₂ = .ok 0 s' ∧
      ¬ Restored started.shm s'.shm ∧ ¬ Repeats (rtapi serving) (lit ['c']) pinCalls [0] s' := by
  have hrun : Registration.runAll 2 pinCalls loaded = .ok [0] (enlisted pinCalls) :=
    result_eq (by decide +kernel)
  have hexit : hal_exit (rtapi serving) 2 (enlisted pinCalls) = .ok 0 (exited pinCalls) :=
    result_eq (by decide +kernel)
  refine ⟨started_reachable, _, _, _, loaded_eq, hrun, hexit, fun h => ?_, ?_⟩
  · obtain ⟨L, L₁, x, L', hu, -⟩ := unloaded started_reachable loaded_eq (by decide) hrun hexit
    refine (hu.restored_iff.mp h).1 ⟨⟨?_, by decide +kernel, fun p hp => ?_⟩, trivial⟩
    · exact ⟨.inl (.inl rfl), by decide, by decide +kernel, by decide +kernel⟩
    · exact absurd hp (Segment.not_listed (by decide +kernel))
  · rintro ⟨r, t, t', hinit', -, hrun'⟩
    have hcodes : result (hal_init (rtapi serving) (some (lit ['c'])) >>= fun r =>
        Registration.runAll r pinCalls) (exited pinCalls) = some [-EINVAL] := by decide +kernel
    have hzero :=
      bind_eq_ok (f := fun r => Registration.runAll r pinCalls).mpr ⟨r, t, hinit', hrun'⟩
    injection (result_eq hcodes).symm.trans hzero with h₀
    revert h₀
    decide

end RTS.Hal

import RealTimeSystem.Hal.Creation
import RealTimeSystem.Hal.Cells
import RealTimeSystem.Hal.TwinFunctions

/-!
# HAL — two processes do the same

Two processes are `Abreast` when their segments are `Twins` and they hold the same otherwise.  Then
each operation returns the same value in both and they are `Abreast` again.

`hal_create_thread` and `hal_thread_delete` set the `comp_id` of a thread, to one value in both: the
bond after them is `Finer`.  `hal_thread_delete` also reads it, and does the same only where it is
the same.
-/

namespace RTS.Hal

open RTS.Support

variable {σ α β : Type} {R : Rtapi σ}

/-- The two processes are the same to HAL, and attached. -/
structure Abreast (b : Bond) (s s' : State σ) : Prop where
  shm : Twins b s.shm s'.shm
  base : s'.hal_shmem_base = s.hal_shmem_base
  mapped : s.hal_shmem_base = b.base
  data : s'.hal_data = s.hal_data
  module : s'.lib_module_id = s.lib_module_id
  mem_id : s'.lib_mem_id = s.lib_mem_id
  rt : s'.rt = s.rt
  readable : s'.readable = s.readable
  attached : s.hal_data ≠ 0
  ready : s.lib_mem_id ≠ 0

/-- No structure is lost. -/
def Retains (s t : State σ) : Prop :=
  ∀ k, ∀ y ∈ s.shm.arena.carved k, y ∈ t.shm.arena.carved k

namespace Retains

variable {s t u : State σ}

theorem of_eq (e : t.shm.arena.carved = s.shm.arena.carved) : Retains s t := fun _ _ hy => e ▸ hy

theorem trans (h : Retains s t) (h' : Retains t u) : Retains s u := fun k y hy => h' k y (h k y hy)

end Retains

/-! ### Steps -/

section
variable {s s' : State σ} {Q : α → State σ → State σ → Prop}

theorem both_look {f : Segment → α} {g g' : α → Prog σ β} {P : β → State σ → State σ → Prop}
    (h : Both (g (f s.shm)) (g' (f s'.shm)) s s' P) :
    Both (look f >>= g) (look f >>= g') s s' P := h

theorem both_load {p : Addr} {Q : Unit → State σ → State σ → Prop} (e : s'.Reads p ↔ s.Reads p) (h : s.Reads p → Q () s s') :
    Both (load p) (load p) s s' Q :=
  .get (.ite e (fun hp => .pure (h hp)) fun _ => .throw)

theorem both_walk {f f' : Segment → Option α} (e : f' s'.shm = f s.shm)
    (h : ∀ a, f s.shm = some a → Q a s s') : Both (walk f) (walk f') s s' Q := by
  unfold walk
  refine .get ?_
  rw [e]
  cases hf : f s.shm with
  | none => exact .throw
  | some a => exact .pure (h a hf)

theorem both_change {f f' : Segment → Segment} {Q : Unit → State σ → State σ → Prop}
    (h : Q () { s with shm := f s.shm } { s' with shm := f' s'.shm }) :
    Both (change f) (change f') s s' Q := .modify h

theorem both_take {f f' : Segment → α × Segment} (e : (f' s'.shm).1 = (f s.shm).1)
    (h : Q (f s.shm).1 { s with shm := (f s.shm).2 } { s' with shm := (f' s'.shm).2 }) :
    Both (take f) (take f') s s' Q := .modifyGet e h

theorem both_walkTo {f f' : Segment → Option (α × Segment)}
    (h : Option.Rel (fun r r' => r'.1 = r.1 ∧
      Q r.1 { s with shm := r.2 } { s' with shm := r'.2 }) (f s.shm) (f' s'.shm)) :
    Both (walkTo f) (walkTo f') s s' Q := by
  unfold walkTo
  refine .get ?_
  revert h
  cases f s.shm <;> cases f' s'.shm
  · exact fun _ => .throw
  · exact nofun
  · exact nofun
  · rintro ⟨e, h⟩
    refine .bind (.modify ?_)
    rw [e]
    exact .pure h

theorem both_call {f f' : σ → α × σ} (e : f' s'.rt = f s.rt)
    (h : Q (f s.rt).1 { s with rt := (f s.rt).2 } { s' with rt := (f s.rt).2 }) :
    Both (call f) (call f') s s' Q :=
  .modifyGet (congrArg Prod.fst e :) (by rw [e]; exact h)

end

namespace Abreast

variable {b : Bond} {s s' : State σ}

theorem renew (h : Abreast b s s') {m m' : Segment} (hm : Twins b m m') :
    Abreast b { s with shm := m } { s' with shm := m' } :=
  { h with shm := hm }

theorem mutex_get (h : Abreast b s s') : Both rtapi_mutex_get rtapi_mutex_get s s' fun _ t t' =>
    Abreast b t t' ∧ t.shm = { s.shm with mutex := true } := by
  obtain ⟨ring, hm⟩ := h.shm
  unfold rtapi_mutex_get
  refine .get (.ite (by rw [h.data]) (fun _ => .bind .throw) fun _ => .bind (.modify ?_))
  refine .ite (by rw [hm.mutex]) (fun _ => .bind .throw) fun _ => both_change ⟨?_, rfl⟩
  exact { h with shm := ⟨ring, { hm with mutex := rfl, same := hm.same }⟩ }

theorem mutex_give (h : Abreast b s s') : Both rtapi_mutex_give rtapi_mutex_give s s' fun _ t t' =>
    Abreast b t t' ∧ t.shm = { s.shm with mutex := false } := by
  obtain ⟨ring, hm⟩ := h.shm
  exact .modify ⟨{ h with shm := ⟨ring, { hm with mutex := rfl, same := hm.same }⟩ }, rfl⟩

/-- The mutex is given, and the operation returns. -/
theorem gives (h : Abreast b s s') {a : α} {Q : α → State σ → State σ → Prop}
    (hQ : ∀ t t', Abreast b t t' → t.shm = { s.shm with mutex := false } → Q a t t') :
    Both (rtapi_mutex_give >>= fun _ => pure a) (rtapi_mutex_give >>= fun _ => pure a) s s' Q :=
  .bind (h.mutex_give.mono fun _ t t' ⟨h, e⟩ => .pure (hQ t t' h e))

theorem call (h : Abreast b s s') (f : σ → α × σ) :
    Both (call f) (call f) s s' fun _ t t' => Abreast b t t' ∧ t.shm = s.shm :=
  both_call (by rw [h.rt]) ⟨{ h with rt := rfl }, rfl⟩

/-- The count of components is not read. -/
theorem counted (h : Abreast b s s') (n n' : Int) :
    Abreast b { s with ref_cnt := n } { s' with ref_cnt := n' } := { h with shm := h.shm }

/-! ### Components -/

section
variable {k : Kind} {x : Nat}

/-- A component that was found. -/
theorem found (h : Abreast b s s') {id : Int} {c : Nat}
    (hf : s.shm.halpr_find_comp_by_id id = some c) (hc : c ≠ 0) : c ∈ s.shm.arena.carved .comp :=
  h.shm.search_mem ⟨by decide, by decide⟩ hf hc

/-- A component is written in both. -/
theorem setComp (h : Abreast b s s') (f f' : Segment → Comp)
    (hf : (f' s'.shm).known = (f s.shm).known) :
    Both (change fun m => m.setComp x (f m)) (change fun m => m.setComp x (f' m)) s s'
      fun _ t t' => Abreast b t t' ∧ t.shm = s.shm.setComp x (f s.shm) := by
  obtain ⟨ring, hm⟩ := h.shm
  exact both_change ⟨h.renew ⟨ring, hm.setComp (.inl rfl) _ _ hf⟩, rfl⟩

theorem hal_set_constructor (h : Abreast b s s') (comp_id : Int) (make : Addr) :
    Both (hal_set_constructor comp_id make) (hal_set_constructor comp_id make) s s'
      fun _ => Abreast b := by
  unfold Hal.hal_set_constructor
  refine .bind (h.mutex_get.mono fun _ t t' ⟨h, _⟩ => .bind ?_)
  refine both_walk (h.shm.find_comp_by_id comp_id) fun c hc => ?_
  refine .ite .rfl (fun _ => h.gives fun _ _ h _ => h) fun h₀ => .bind ?_
  have hs := h.shm.same (h.found hc h₀)
  refine (h.setComp (fun m => { m.comp c with make := make })
    (fun m => { m.comp c with make := make }) hs).mono fun _ t t' ⟨h, _⟩ => ?_
  exact h.gives fun _ _ h _ => h

theorem hal_set_unready (h : Abreast b s s') (comp_id : Int) :
    Both (hal_set_unready comp_id) (hal_set_unready comp_id) s s' fun _ => Abreast b := by
  unfold Hal.hal_set_unready
  refine .bind (h.mutex_get.mono fun _ t t' ⟨h, _⟩ => .bind ?_)
  refine both_walk (h.shm.find_comp_by_id comp_id) fun c hc => ?_
  refine .ite .rfl (fun h₀ => .bind ?_) fun _ => h.gives fun _ _ h _ => h
  obtain ⟨h₁, h₂, -, h₄, h₅⟩ := (h.shm.same (h.found hc h₀)).comp
  refine (h.setComp (fun m => { m.comp c with ready := 0 })
    (fun m => { m.comp c with ready := 0 }) ?_).mono fun _ t t' ⟨h, _⟩ => ?_
  · simp only [Comp.known, h₁, h₂, h₄, h₅]
  · exact h.gives fun _ _ h _ => h

/-- `hal_ready` and `hal_unready`. -/
theorem hal_ready (h : Abreast b s s') (comp_id : Int) :
    Both (hal_ready comp_id) (hal_ready comp_id) s s' fun _ => Abreast b := by
  unfold Hal.hal_ready
  refine .bind (h.mutex_get.mono fun _ t t' ⟨h, _⟩ => .bind ?_)
  refine both_walk (h.shm.find_comp_by_id comp_id) fun c hc => ?_
  refine .ite .rfl (fun _ => h.gives fun _ _ h _ => h) fun h₀ => both_look ?_
  obtain ⟨h₁, h₂, h₃, h₄, h₅⟩ := (h.shm.same (h.found hc h₀)).comp
  refine .ite (by rw [h₃]) (fun _ => h.gives fun _ _ h _ => h) fun _ => .bind ?_
  refine (h.setComp (fun m => { m.comp c with ready := 1 })
    (fun m => { m.comp c with ready := 1 }) ?_).mono fun _ t t' ⟨h, _⟩ => ?_
  · simp only [Comp.known, h₁, h₂, h₄, h₅]
  · exact h.gives fun _ _ h _ => h

theorem hal_unready (h : Abreast b s s') (comp_id : Int) :
    Both (hal_unready comp_id) (hal_unready comp_id) s s' fun _ => Abreast b := by
  unfold Hal.hal_unready
  refine .bind (h.mutex_get.mono fun _ t t' ⟨h, _⟩ => .bind ?_)
  refine both_walk (h.shm.find_comp_by_id comp_id) fun c hc => ?_
  refine .ite .rfl (fun _ => h.gives fun _ _ h _ => h) fun h₀ => both_look ?_
  obtain ⟨h₁, h₂, h₃, h₄, h₅⟩ := (h.shm.same (h.found hc h₀)).comp
  refine .ite (by rw [h₃]) (fun _ => h.gives fun _ _ h _ => h) fun _ => .bind ?_
  refine (h.setComp (fun m => { m.comp c with ready := 0 })
    (fun m => { m.comp c with ready := 0 }) ?_).mono fun _ t t' ⟨h, _⟩ => ?_
  · simp only [Comp.known, h₁, h₂, h₄, h₅]
  · exact h.gives fun _ _ h _ => h

theorem hal_comp_name (h : Abreast b s s') (comp_id : Int) :
    Both (hal_comp_name comp_id) (hal_comp_name comp_id) s s' fun _ => Abreast b := by
  unfold Hal.hal_comp_name
  refine .bind (h.mutex_get.mono fun _ t t' ⟨h, _⟩ => .bind ?_)
  refine both_walk (h.shm.find_comp_by_id comp_id) fun c hc => both_look ?_
  have hname : (if c ≠ 0 then some (t'.shm.comp c).name else none) =
      if c ≠ 0 then some (t.shm.comp c).name else none := by
    split_ifs with h₀
    · rw [(h.shm.same (h.found hc h₀)).comp.2.2.2.2]
    · rfl
  rw [hname]
  exact h.gives fun _ _ h _ => h

/-- A new component. -/
theorem hal_init_comp (h : Abreast b s s') (name : CStr) :
    Both (hal_init_comp R name) (hal_init_comp R name) s s'
      fun _ t t' => Abreast b t t' ∧ Retains s t := by
  unfold Hal.hal_init_comp
  refine .bind ((h.call _).mono fun id t t' hpost => ?_)
  obtain ⟨h, e⟩ := hpost
  have hk : Retains s t := .of_eq (by rw [e])
  refine .ite .rfl (fun _ => .pure ⟨h, hk⟩) fun _ => ?_
  refine .bind (h.mutex_get.mono fun _ u u' hpost => .bind ?_)
  obtain ⟨h, e⟩ := hpost
  have hk : Retains s u := hk.trans (.of_eq (by rw [e]))
  refine both_walk (h.shm.find_comp_by_name _) fun c hc => ?_
  refine .ite .rfl (fun _ => ?_) fun _ => .bind ?_
  · refine .bind (h.mutex_give.mono fun _ v v' hv => .bind ((hv.1.call _).mono fun _ w w' hw => ?_))
    exact .pure ⟨hw.1, hk.trans (.of_eq (by rw [hw.2, hv.2]))⟩
  obtain ⟨he, hnone, hsome, hkept⟩ := h.shm.halpr_alloc_comp_struct
  refine both_take he (.ite .rfl (fun h₀ => ?_) fun h₀ => .get ?_)
  · refine .bind ((h.renew (hnone h₀)).mutex_give.mono fun _ v v' hv => .bind ?_)
    refine (hv.1.call _).mono fun _ w w' hw => .pure ⟨hw.1, hk.trans ?_⟩
    rw [Retains, hw.2, hv.2]
    exact hkept
  obtain ⟨hin, hname, ring, hm⟩ := hsome h₀
  -- the component is finished here, `ready` included
  have hknown : ∀ c c' : Comp, c'.name = c.name → Comp.known { c' with
        comp_id := id, type := .realtime, pid := 0, ready := 0, shmem_base := u'.hal_shmem_base,
        insmod_args := 0 } = Comp.known { c with
        comp_id := id, type := .realtime, pid := 0, ready := 0, shmem_base := u.hal_shmem_base,
        insmod_args := 0 } := fun c c' hn => by
    simp only [Comp.known, hn, h.base]
  have hdone : Twins b _ _ := ⟨ring, hm.setComp (.inr rfl) _ _ (hknown _ _ hname)⟩
  have hlisted := hdone.insert_head (k := .comp) ⟨by decide, by decide⟩ hin
  refine .bind (both_change (.bind (both_change ?_)))
  refine .bind ((h.renew hlisted).mutex_give.mono fun _ v v' hpost => .bind ?_)
  obtain ⟨h, e⟩ := hpost
  have hv : u.shm.halpr_alloc_comp_struct.1 ∈ v.shm.arena.carved .comp := by
    rw [e]
    exact hin
  obtain ⟨h₁, h₂, h₃, h₄, h₅⟩ := (h.shm.same hv).comp
  refine (h.setComp (fun m => { m.comp _ with type := .realtime, pid := 0 })
    (fun m => { m.comp _ with type := .realtime, pid := 0 }) ?_).mono fun _ w w' hpost => ?_
  · simp only [Comp.known, h₁, h₃, h₄, h₅]
  obtain ⟨h, e'⟩ := hpost
  refine .bind (.modify (.pure ⟨h.counted _ _, hk.trans ?_⟩))
  rw [Retains, e', e]
  exact hkept

theorem hal_init (h : Abreast b s s') (name : Option CStr) :
    Both (hal_init R name) (hal_init R name) s s' fun _ t t' => Abreast b t t' ∧ Retains s t := by
  have hrefl : Abreast b s s' ∧ Retains s s := ⟨h, .of_eq rfl⟩
  rcases name with _ | name
  · exact .pure hrefl
  unfold Hal.hal_init
  refine .ite .rfl (fun _ => .pure hrefl) fun _ => .get ?_
  exact .ite (by rw [h.mem_id]) (fun h₀ => absurd h₀ h.ready) fun _ => h.hal_init_comp name

theorem hal_exit (h : Abreast b s s') (comp_id : Int) :
    Both (hal_exit R comp_id) (hal_exit R comp_id) s s'
      fun _ t t' => Abreast b t t' ∧ Retains s t := by
  have hrefl : Abreast b s s' ∧ Retains s s := ⟨h, .of_eq rfl⟩
  unfold Hal.hal_exit
  refine .get (.ite (by rw [h.data]) (fun _ => .pure hrefl) fun _ => ?_)
  refine .ite (by rw [h.shm.choose_spec.state]) (fun _ => .pure hrefl) fun _ => ?_
  refine .bind (h.mutex_get.mono fun _ t t' ⟨h, e⟩ => .bind ?_)
  have hk : Retains s t := .of_eq (by rw [e])
  have hq : Arena.Queued .comp := ⟨by decide, by decide⟩
  have hp := h.shm.pool hq
  refine both_walk (hp.seek (fun x hx => by rw [(h.shm.same hx).comp.1]) (c := .root) trivial)
    fun prev hprev => both_look ?_
  have hin := hp.seek_in (c := .root) trivial hprev
  rw [hp.deref hin]
  refine .ite .rfl (fun _ => h.gives fun _ _ h e => ⟨h, hk.trans (.of_eq (by rw [e]))⟩) fun h₀ => ?_
  have hmem := hp.deref_mem hin h₀
  have hu := h.shm.unlink hq prev hmem
  refine .bind (both_change (.bind (both_walkTo ?_)))
  refine rel_map (hu.free_comp_struct hmem) fun n n' ⟨hn, hc⟩ => ⟨rfl, ?_⟩
  refine .bind ((h.renew hn).mutex_give.mono fun _ u u' ⟨h, e⟩ => .bind (.modify ?_))
  refine .bind (((h.counted (u.ref_cnt - 1) (u'.ref_cnt - 1)).call _).mono fun _ v v' ⟨h, e'⟩ => ?_)
  refine .pure ⟨h, hk.trans (.of_eq ?_)⟩
  rw [e']
  show u.shm.arena.carved = _
  rw [e]
  exact hc

theorem hal_malloc (h : Abreast b s s') {size : Int} (h₀ : 0 ≤ size) :
    Both (hal_malloc size) (hal_malloc size) s s' fun _ => Abreast b := by
  unfold Hal.hal_malloc
  refine .get (.ite (by rw [h.data]) (fun _ => .pure h) fun _ => ?_)
  refine .bind (h.mutex_get.mono fun _ t t' ⟨h, e⟩ => ?_)
  obtain ⟨ring, hm⟩ := h.shm
  have hg := hm.relink (hm.arena.grow h₀) rfl rfl
  refine .bind (both_take (by rw [hm.arena.brk]) ?_)
  exact (h.renew ⟨ring, hg⟩).gives fun _ _ h _ => h

/-! ### Registering -/

theorem insert_new (h : Abreast b s s') (hq : Arena.Queued k) {names : Segment → Nat → CStr}
    {free : Segment → Nat → Option Segment}
    (hnames : ∀ y ∈ s.shm.arena.carved k, names s'.shm y = names s.shm y)
    (hfree : ∀ {n n' y}, Twins b n n' → y ∈ n.arena.carved k →
      Option.Rel (Next b n) (free n y) (free n' y)) (hx : x ∈ s.shm.arena.carved k) :
    Both (insert_new k names free x) (insert_new k names free x) s s'
      fun _ t t' => Abreast b t t' ∧ Retains s t := by
  unfold Hal.insert_new
  refine .bind (both_walkTo (rel_mono (h.shm.insert_sorted hq hnames hx) fun r r' ⟨e, ht, hc⟩ =>
    ⟨e, ?_⟩))
  have h₁ := h.renew ht
  refine .ite .rfl (fun _ => h₁.gives fun _ _ h e => ⟨h, .of_eq (by rw [e]; exact hc)⟩) fun _ => ?_
  refine .bind (both_walkTo (rel_map (hfree ht (hc.symm ▸ hx)) fun n n' ⟨hn, hc'⟩ => ⟨rfl, ?_⟩))
  exact (h.renew hn).gives fun _ _ h e => ⟨h, .of_eq (by rw [e]; exact hc'.trans hc)⟩

/-- The common part of `hal_pin_new` and `hal_param_new`.  `P` is what a success leaves in the
pointer cells. -/
theorem register_new (h : Abreast b s s') (hq : Arena.Queued k) {names : Segment → Nat → CStr}
    {alloc : Segment → Nat × Segment} {fill : Nat → Nat → Segment → Segment}
    {free : Segment → Nat → Option Segment} {P : (Nat → Addr) → (Nat → Addr) → Prop}
    (hnames : ∀ {n n' y}, Twins b n n' → y ∈ n.arena.carved k → names n' y = names n y)
    (halloc : ∀ {n n'}, Twins b n n' → Twins.Took b k n (alloc n) (alloc n'))
    (hfill : ∀ {n n' c y}, Twins b n n' → c ∈ n.arena.carved .comp → y ∈ n.arena.carved k →
      Next b n (fill c y n) (fill c y n') ∧ P (fill c y n).cell (fill c y n').cell)
    (hfree : ∀ {n n' y}, Twins b n n' → y ∈ n.arena.carved k →
      Option.Rel (Next b n) (free n y) (free n' y))
    (hcell : ∀ {n n' y}, free n y = some n' → n'.cell = n.cell) (addr : Addr) (comp_id : Int) :
    Both (register_new k names alloc fill free addr comp_id)
      (register_new k names alloc fill free addr comp_id) s s' fun r t t' =>
        (Abreast b t t' ∧ Retains s t) ∧ (r = 0 → P t.shm.cell t'.shm.cell) := by
  have err : ∀ {e : Int} {t t' : State σ}, e ≠ 0 → e = 0 → P t.shm.cell t'.shm.cell :=
    fun h₀ h₁ => absurd h₁ h₀
  unfold Hal.register_new
  refine .get (.bind (h.mutex_get.mono fun _ t t' ⟨ht, e⟩ => .bind ?_))
  have hk : Retains s t := .of_eq (by rw [e])
  have refuse : ∀ {e : Int} {u u' : State σ}, Abreast b u u' → Retains s u → e ≠ 0 →
      Both (rtapi_mutex_give >>= fun _ => pure e) (rtapi_mutex_give >>= fun _ => pure e) u u'
        fun r t t' => (Abreast b t t' ∧ Retains s t) ∧ (r = 0 → P t.shm.cell t'.shm.cell) :=
    fun hu hk h₀ => hu.gives fun _ _ h e => ⟨⟨h, hk.trans (.of_eq (by rw [e]))⟩, err h₀⟩
  refine both_walk (ht.shm.find_comp_by_id comp_id) fun c hc => ?_
  refine .ite .rfl (fun _ => refuse ht hk (by decide)) fun h₀ => ?_
  have hmem := ht.found hc h₀
  refine .ite (by rw [h.base]) (fun _ => refuse ht hk (by decide)) fun _ => both_look ?_
  refine .ite (by rw [(ht.shm.same hmem).comp.2.2.1]) (fun _ => refuse ht hk (by decide))
    fun _ => .bind ?_
  have hnew := halloc ht.shm
  refine both_take hnew.eq ?_
  have hu := ht.renew hnew.twins
  refine .ite .rfl (fun _ => refuse hu (hk.trans hnew.kept) (by decide)) fun h₁ => .bind ?_
  obtain ⟨⟨hf, hc'⟩, hP⟩ := hfill hnew.twins (hnew.kept _ _ hmem) (hnew.mem h₁)
  refine both_change (.bind ?_)
  have hv := hu.renew hf
  refine ((hv.insert_new hq (fun y hy => hnames hf hy) hfree (hc'.symm ▸ hnew.mem h₁)).with_eq).mono
    fun inserted w w' ⟨hrun, hrun', hw, hkw⟩ => ?_
  have hk' : Retains s w := hk.trans fun k y hy => hkw k y (hc'.symm ▸ hnew.kept k y hy)
  refine .ite .rfl (fun _ => .pure ⟨⟨hw, hk'⟩, fun _ => ?_⟩)
    fun _ => .pure ⟨⟨hw, hk'⟩, err (by decide)⟩
  rw [show w.shm.cell = _ from Along.of_ok (Uncelled.insert_new hcell) hrun,
    show w'.shm.cell = _ from Along.of_ok (Uncelled.insert_new hcell) hrun']
  exact hP

theorem hal_param_new (h : Abreast b s s') (name : CStr) (type : HalType) (dir : ParamDir)
    (data_addr : Addr) (comp_id : Int) :
    Both (hal_param_new name type dir data_addr comp_id)
      (hal_param_new name type dir data_addr comp_id) s s'
      fun _ t t' => Abreast b t t' ∧ Retains s t := by
  have hrefl : Abreast b s s' ∧ Retains s s := ⟨h, .of_eq rfl⟩
  unfold Hal.hal_param_new
  refine .get (.ite (by rw [h.data]) (fun _ => .pure hrefl) fun _ => ?_)
  refine .ite .rfl (fun _ => .pure hrefl) fun _ => .ite .rfl (fun _ => .pure hrefl) fun _ => ?_
  refine .ite .rfl (fun _ => .pure hrefl) fun _ => ?_
  refine .ite (by rw [h.shm.choose_spec.lock]) (fun _ => .pure hrefl) fun _ => ?_
  rw [h.base]
  have hq : Arena.Queued .param := ⟨by decide, by decide⟩
  have hnames : ∀ {n n' : Segment} {y : Nat}, Twins b n n' → y ∈ n.arena.carved .param →
      (n'.param y).name = (n.param y).name := fun hn hy => (hn.same hy).param.2
  have hfill : ∀ {n n' : Segment} {c y : Nat}, Twins b n n' → c ∈ n.arena.carved .comp →
      y ∈ n.arena.carved .param →
      Next b n (Segment.fill_param s.hal_shmem_base name type dir data_addr c y n)
        (Segment.fill_param s.hal_shmem_base name type dir data_addr c y n') ∧ True :=
    fun ⟨ring, hn⟩ _ _ => ⟨⟨⟨ring, hn.setParam (.inl rfl) _ _ rfl rfl rfl⟩, rfl⟩, trivial⟩
  have hfree : ∀ {n n' : Segment} {y : Nat}, Twins b n n' → y ∈ n.arena.carved .param →
      Option.Rel (Next b n) (some (n.free_param_struct y)) (some (n'.free_param_struct y)) :=
    fun hn hy => .some ⟨hn.free_param_struct hy, by
      unfold Segment.free_param_struct
      split_ifs <;> rfl⟩
  have hcell : ∀ {n n' : Segment} {y : Nat}, some (n.free_param_struct y) = some n' →
      n'.cell = n.cell := fun e => by
    cases e
    exact free_param_struct_cells _ _
  have hreg := h.register_new (P := fun _ _ => True) hq hnames Twins.alloc_param_struct hfill hfree
    hcell data_addr comp_id
  exact hreg.mono fun _ _ _ h => h.1

theorem hal_pin_new (h : Abreast b s s') (name : CStr) (type : HalType) (data_ptr_addr : Addr)
    (comp_id : Int) :
    Both (hal_pin_new name type data_ptr_addr comp_id)
      (hal_pin_new name type data_ptr_addr comp_id) s s' fun r t t' =>
        (Abreast b t t' ∧ Retains s t) ∧ (r = 0 →
          t'.shm.cell (data_ptr_addr - s.hal_shmem_base) =
            t.shm.cell (data_ptr_addr - s.hal_shmem_base)) := by
  have err : ∀ {e : Int}, e ≠ 0 → (Abreast b s s' ∧ Retains s s) ∧ (e = 0 →
      s'.shm.cell (data_ptr_addr - s.hal_shmem_base) =
        s.shm.cell (data_ptr_addr - s.hal_shmem_base)) :=
    fun h₀ => ⟨⟨h, .of_eq rfl⟩, fun h₁ => absurd h₁ h₀⟩
  unfold Hal.hal_pin_new
  refine .get (.ite (by rw [h.data]) (fun _ => .pure (err (by decide))) fun _ => ?_)
  refine .bind (both_load (by unfold State.Reads; rw [h.base, h.readable]) fun _ => ?_)
  refine .ite .rfl (fun _ => .pure (err (by decide))) fun _ => ?_
  refine .ite .rfl (fun _ => .pure (err (by decide))) fun _ => ?_
  refine .ite (by rw [h.shm.choose_spec.lock]) (fun _ => .pure (err (by decide))) fun _ => ?_
  rw [h.base]
  have hq : Arena.Queued .pin := ⟨by decide, by decide⟩
  have hnames : ∀ {n n' : Segment} {y : Nat}, Twins b n n' → y ∈ n.arena.carved .pin →
      (n'.pin y).name = (n.pin y).name := fun hn hy => (hn.same hy).pin.2.2
  -- the cell of the pin points at the dummy signal, wherever it pointed before
  have hfill : ∀ {n n' : Segment} {c y : Nat}, Twins b n n' → c ∈ n.arena.carved .comp →
      y ∈ n.arena.carved .pin →
      Next b n (Segment.fill_pin s.hal_shmem_base name type data_ptr_addr c y n)
        (Segment.fill_pin s.hal_shmem_base name type data_ptr_addr c y n') ∧
      (Segment.fill_pin s.hal_shmem_base name type data_ptr_addr c y n').cell
          (data_ptr_addr - s.hal_shmem_base) =
        (Segment.fill_pin s.hal_shmem_base name type data_ptr_addr c y n).cell
          (data_ptr_addr - s.hal_shmem_base) := fun {n n' c y} hn hc hy => by
    obtain ⟨h₀, h₀', -⟩ := (hn.same hy).pin
    have hbase := (hn.same hc).comp.2.2.2.1
    obtain ⟨ring, hn⟩ := hn
    refine ⟨⟨⟨ring, ?_⟩, rfl⟩, ?_⟩
    · refine ((hn.setPin (.inl rfl) _ _ ?_ ?_).setData _ _ 0).setCell _ _ _
      · simp only [Pin.known, h₀, h₀']
      · exact h₀
    · simp only [Segment.fill_pin, Segment.setCell, Function.update_self, hbase]
  have hfree : ∀ {n n' : Segment} {y : Nat}, Twins b n n' → y ∈ n.arena.carved .pin →
      Option.Rel (Next b n) (some (n.free_pin_struct s.hal_shmem_base y))
        (some (n'.free_pin_struct s.hal_shmem_base y)) :=
    fun hn hy => .some ⟨hn.free_pin_struct _ hy, by
      unfold Segment.free_pin_struct
      split_ifs <;> rfl⟩
  have hcell : ∀ {n n' : Segment} {y : Nat}, some (n.free_pin_struct s.hal_shmem_base y) = some n' →
      n'.cell = n.cell := fun e => by
    cases e
    exact free_pin_struct_cells _ _ _
  exact h.register_new (P := fun cell cell' => cell' (data_ptr_addr - s.hal_shmem_base) =
    cell (data_ptr_addr - s.hal_shmem_base)) hq hnames Twins.alloc_pin_struct hfill hfree hcell
    data_ptr_addr comp_id

theorem hal_pin_newf (h : Abreast b s s') (type : HalType) (data_ptr_addr : Addr) (comp_id : Int)
    (full : CStr) :
    Both (hal_pin_newf type data_ptr_addr comp_id full)
      (hal_pin_newf type data_ptr_addr comp_id full) s s' fun r t t' =>
        (Abreast b t t' ∧ Retains s t) ∧ (r = 0 →
          t'.shm.cell (data_ptr_addr - s.hal_shmem_base) =
            t.shm.cell (data_ptr_addr - s.hal_shmem_base)) := by
  unfold Hal.hal_pin_newf hal_pin_newfv
  refine .ite .rfl (fun _ => .pure ⟨⟨h, .of_eq rfl⟩, fun h₁ => absurd h₁ (by decide)⟩) fun _ => ?_
  exact h.hal_pin_new _ _ _ _

/-! ### Functions -/

theorem setData (h : Abreast b s s') (p p' : Addr) (v : Int) :
    Abreast b { s with shm := s.shm.setData p v } { s' with shm := s'.shm.setData p' v } := by
  obtain ⟨ring, hm⟩ := h.shm
  exact h.renew ⟨ring, hm.setData p p' v⟩

theorem storeThrough (h : Abreast b s s') {c : Nat} (hc : s'.shm.cell c = s.shm.cell c) (v : Int) :
    Both (storeThrough c v) (storeThrough c v) s s' fun _ t t' => Abreast b t t' ∧ Retains s t := by
  unfold Hal.storeThrough store
  refine both_look ?_
  rw [hc]
  exact .ite .rfl (fun _ => .throw) fun _ => both_change ⟨h.setData _ _ v, .of_eq rfl⟩

theorem export_funct_pins (h : Abreast b s s') (name : CStr) (new : Nat) (comp_id : Int) :
    Both (export_funct_pins name new comp_id) (export_funct_pins name new comp_id) s s'
      fun _ t t' => Abreast b t t' ∧ Retains s t := by
  unfold Hal.export_funct_pins
  refine .get ?_
  rw [h.base]
  refine .bind ((h.hal_pin_newf _ _ _ _).mono fun r t t' ⟨⟨ht, hk⟩, hcell⟩ => ?_)
  refine .ite .rfl (fun _ => .pure ⟨ht, hk⟩) fun h₀ => ?_
  have hc := hcell (Decidable.not_not.mp h₀)
  rw [Nat.add_sub_cancel_left] at hc
  refine .bind ((ht.storeThrough hc 0).mono fun _ u u' ⟨hu, hk₁⟩ => ?_)
  refine .bind (both_change (.bind (((hu.setData _ _ 0).hal_param_new _ _ _ _ _).mono
    fun _ v v' ⟨hv, hk₂⟩ => ?_)))
  refine .bind (both_change (.bind (((hv.setData _ _ 0).hal_param_new _ _ _ _ _).mono
    fun _ w w' ⟨hw, hk₃⟩ => .pure ⟨hw, ?_⟩)))
  exact hk.trans (hk₁.trans (Retains.trans hk₂ hk₃))

theorem export_funct_new (h : Abreast b s s') (name : CStr) (funct arg : Addr)
    (uses_fp reentrant comp_id : Int) :
    Both (export_funct_new name funct arg uses_fp reentrant comp_id)
      (export_funct_new name funct arg uses_fp reentrant comp_id) s s'
      fun _ t t' => Abreast b t t' ∧ Retains s t := by
  have refuse : ∀ {e : Except Int Nat} {u u' : State σ}, Abreast b u u' → Retains s u →
      Both (rtapi_mutex_give >>= fun _ => pure e) (rtapi_mutex_give >>= fun _ => pure e) u u'
        fun _ t t' => Abreast b t t' ∧ Retains s t :=
    fun hu hk => hu.gives fun _ _ h e => ⟨h, hk.trans (.of_eq (by rw [e]))⟩
  unfold Hal.export_funct_new
  refine .bind (h.mutex_get.mono fun _ t t' ⟨ht, e⟩ => .bind ?_)
  have hk : Retains s t := .of_eq (by rw [e])
  refine both_walk (ht.shm.find_comp_by_id comp_id) fun c hc => ?_
  refine .ite .rfl (fun _ => refuse ht hk) fun h₀ => both_look ?_
  have hmem := ht.found hc h₀
  obtain ⟨-, htype, hready, -⟩ := (ht.shm.same hmem).comp
  refine .ite (by rw [htype]) (fun _ => refuse ht hk) fun _ => both_look ?_
  refine .ite (by rw [hready]) (fun _ => refuse ht hk) fun _ => .bind ?_
  have hnew := ht.shm.alloc_funct_struct
  refine both_take hnew.eq ?_
  have hu := ht.renew hnew.twins
  refine .ite .rfl (fun _ => refuse hu (hk.trans hnew.kept)) fun h₁ => .bind (both_change (.bind ?_))
  obtain ⟨ring, hm⟩ := hnew.twins
  let f : Funct :=
    { uses_fp := uses_fp, owner_ptr := c, reentrant := reentrant, users := 0, arg := arg
      funct := funct, name := rt_snprintf (HAL_NAME_LEN + 1) name }
  have hset := hu.renew ⟨ring, hm.setFunct (x := t.shm.alloc_funct_struct.1) (f := f) (.inl rfl) rfl⟩
  refine (hset.insert_new (k := .funct) ⟨by decide, by decide⟩
    (fun y hy => by rw [show _ = _ from hset.shm.same hy])
    Twins.free_funct_struct (hnew.mem h₁)).mono fun inserted w w' ⟨hw, hkw⟩ => ?_
  have hk' : Retains s w := hk.trans fun k y hy => hkw k y (hnew.kept k y hy)
  exact .ite .rfl (fun _ => .pure ⟨hw, hk'⟩) fun _ => .pure ⟨hw, hk'⟩

theorem hal_export_funct (h : Abreast b s s') (name : CStr) (funct arg : Addr)
    (uses_fp reentrant comp_id : Int) :
    Both (hal_export_funct name funct arg uses_fp reentrant comp_id)
      (hal_export_funct name funct arg uses_fp reentrant comp_id) s s' fun _ => Abreast b := by
  unfold Hal.hal_export_funct
  refine .get (.ite (by rw [h.data]) (fun _ => .pure h) fun _ => .ite .rfl (fun _ => .pure h)
    fun _ => .ite (by rw [h.shm.choose_spec.lock]) (fun _ => .pure h) fun _ => .bind ?_)
  refine (h.export_funct_new name funct arg uses_fp reentrant comp_id).mono
    fun made t t' ⟨ht, _⟩ => ?_
  cases made with
  | error e => exact .pure ht
  | ok new => exact (ht.export_funct_pins name new comp_id).mono fun _ _ _ h => h.1

/-! ### The functions of a thread -/

theorem hal_add_funct_to_thread (h : Abreast b s s') (funct_name thread_name : Option CStr)
    (position : Int) :
    Both (hal_add_funct_to_thread funct_name thread_name position)
      (hal_add_funct_to_thread funct_name thread_name position) s s' fun _ => Abreast b := by
  have refuse : ∀ {e : Int} {u u' : State σ}, Abreast b u u' →
      Both (rtapi_mutex_give >>= fun _ => pure e) (rtapi_mutex_give >>= fun _ => pure e) u u'
        fun _ => Abreast b := fun hu => hu.gives fun _ _ h _ => h
  unfold Hal.hal_add_funct_to_thread
  refine .get (.ite (by rw [h.data]) (fun _ => .pure h) fun _ => ?_)
  refine .ite (by rw [h.shm.choose_spec.lock]) (fun _ => .pure h) fun _ => ?_
  refine .bind (h.mutex_get.mono fun _ t t' ⟨h, _⟩ => .ite .rfl (fun _ => refuse h) fun _ => ?_)
  rcases funct_name with _ | funct_name
  · exact refuse h
  rcases thread_name with _ | thread_name
  · exact refuse h
  refine .bind (both_walk (h.shm.find_funct_by_name funct_name) fun f hf => ?_)
  refine .ite .rfl (fun _ => refuse h) fun h₀ => both_look ?_
  have hfunct : f ∈ t.shm.arena.carved .funct := h.shm.search_mem ⟨by decide, by decide⟩ hf h₀
  rw [show t'.shm.funct f = t.shm.funct f from h.shm.same hfunct]
  refine .ite .rfl (fun _ => refuse h) fun _ => .bind ?_
  refine both_walk (h.shm.find_thread_by_name thread_name) fun th hth => ?_
  refine .ite .rfl (fun _ => refuse h) fun h₁ => both_look ?_
  have hthread : th ∈ t.shm.arena.carved .thread := h.shm.search_mem ⟨by decide, by decide⟩ hth h₁
  refine .ite (by rw [(h.shm.same hthread).thread.1]) (fun _ => refuse h) fun _ => .bind ?_
  obtain ⟨ring, hm⟩ := h.shm
  have hroot := Arena.Twin.thread_root hthread
  obtain ⟨hpoint, hin⟩ := Twins.insertion_point hm hroot position
  refine both_walk hpoint fun found hfound => ?_
  rcases found with _ | at_
  · exact refuse h
  refine .get ?_
  -- both get the same entry, or none
  rcases Twins.alloc_funct_entry_struct hm with
    ⟨e₁, e₂⟩ | ⟨e, n, n', e₁, e₂, hfuncts, hkept, ring', hn, hstay⟩
  · rw [e₁, e₂]
    exact .throw
  rw [e₁, e₂]
  have hfunct' := hkept _ _ hfunct
  have hsame : n'.funct f = n.funct f := hn.same .funct f hfunct' nofun
  have hroot' := Arena.Twin.thread_root (hkept _ _ hthread)
  have hat := hstay _ hroot (hm.arena.mem.root_ne_free hthread) _ (hin _ hfound)
  have hset := hn.setEntry (x := e) (.inl rfl)
    (congrArg (fun g : Funct => (⟨g.arg, g.funct, f⟩ : Entry)) hsame) fun _ => hfunct'
  obtain ⟨ring'', ha, -⟩ := hset.arena.add_after hroot' hat
  have hdone := (hset.relink ha rfl rfl).setFunct (x := f) (.inl rfl)
    (congrArg (fun g : Funct => { g with users := g.users + 1 }) hsame)
  refine .bind (both_change (.bind (both_change (.bind (both_change (.bind (both_change ?_)))))))
  exact refuse (h.renew ⟨ring'', hdone⟩)

theorem hal_del_funct_from_thread (h : Abreast b s s') (funct_name thread_name : Option CStr) :
    Both (hal_del_funct_from_thread funct_name thread_name)
      (hal_del_funct_from_thread funct_name thread_name) s s' fun _ => Abreast b := by
  have refuse : ∀ {e : Int} {u u' : State σ}, Abreast b u u' →
      Both (rtapi_mutex_give >>= fun _ => pure e) (rtapi_mutex_give >>= fun _ => pure e) u u'
        fun _ => Abreast b := fun hu => hu.gives fun _ _ h _ => h
  unfold Hal.hal_del_funct_from_thread
  refine .get (.ite (by rw [h.data]) (fun _ => .pure h) fun _ => ?_)
  refine .ite (by rw [h.shm.choose_spec.lock]) (fun _ => .pure h) fun _ => ?_
  refine .bind (h.mutex_get.mono fun _ t t' ⟨h, _⟩ => ?_)
  rcases funct_name with _ | funct_name
  · exact refuse h
  rcases thread_name with _ | thread_name
  · exact refuse h
  refine .bind (both_walk (h.shm.find_funct_by_name funct_name) fun f hf => ?_)
  refine .ite .rfl (fun _ => refuse h) fun h₀ => both_look ?_
  have hfunct : f ∈ t.shm.arena.carved .funct := h.shm.search_mem ⟨by decide, by decide⟩ hf h₀
  rw [show t'.shm.funct f = t.shm.funct f from h.shm.same hfunct]
  refine .ite .rfl (fun _ => refuse h) fun _ => .bind ?_
  refine both_walk (h.shm.find_thread_by_name thread_name) fun th hth => ?_
  refine .ite .rfl (fun _ => refuse h) fun h₁ => .bind ?_
  have hthread : th ∈ t.shm.arena.carved .thread := h.shm.search_mem ⟨by decide, by decide⟩ hth h₁
  obtain ⟨ring, hm⟩ := h.shm
  have hroot := Arena.Twin.thread_root hthread
  have hfirst := (hm.arena.links _ (.inl hroot)).1
  obtain ⟨hfind, hin⟩ := Twins.find_entry f (n := FUEL) hm hroot
    (hm.arena.next_in hroot List.mem_cons_self)
  refine both_walk (by rw [hfirst]; exact hfind) fun found hfound => ?_
  rcases found with _ | e
  · exact refuse h
  obtain ⟨ring', ha, -⟩ := hm.arena.remove_entry hroot (hin _ hfound)
  obtain ⟨ring'', hdone, -⟩ := Twins.free_funct_entry_struct (hm.relink ha rfl rfl)
  refine .bind (both_change (.bind (both_change ?_)))
  exact refuse (h.renew ⟨ring'', hdone⟩)

/-! ### Threads -/

theorem rtapi_task_pause (h : Abreast b s s') (id : Int) :
    Both (rtapi_task_pause R id) (rtapi_task_pause R id) s s' fun _ t t' =>
      Abreast b t t' ∧ t.shm = s.shm := by
  refine .bind (.modify ?_)
  have h₁ : Abreast b { s with strikes := ⟨id, s.shm⟩ :: s.strikes }
      { s' with strikes := ⟨id, s'.shm⟩ :: s'.strikes } := { h with shm := h.shm }
  exact h₁.call _

theorem rtapi_task_delete (h : Abreast b s s') (id : Int) :
    Both (rtapi_task_delete R id) (rtapi_task_delete R id) s s' fun _ t t' =>
      Abreast b t t' ∧ t.shm = s.shm := by
  refine .bind (.modify ?_)
  have h₁ : Abreast b { s with strikes := ⟨id, s.shm⟩ :: s.strikes }
      { s' with strikes := ⟨id, s'.shm⟩ :: s'.strikes } := { h with shm := h.shm }
  exact h₁.call _

theorem free_thread_struct (h : Abreast b s s') (hx : x ∈ s.shm.arena.carved .thread) :
    Both (free_thread_struct R x) (free_thread_struct R x) s s' fun _ t t' =>
      Abreast b t t' ∧ Retains s t := by
  obtain ⟨ring, hm⟩ := h.shm
  have htask := (hm.same .thread x hx nofun : Alike _ _ _ _).thread.2.1
  unfold Hal.free_thread_struct
  refine .bind (both_change (both_look ?_))
  rw [show ({ s'.shm with threads_running := 0 } : Segment).thread x = s'.shm.thread x from rfl,
    htask]
  have h₀ : Abreast b { s with shm := { s.shm with threads_running := 0 } }
      { s' with shm := { s'.shm with threads_running := 0 } } :=
    h.renew ⟨ring, { hm with threads_running := rfl, same := hm.same }⟩
  refine .bind ((h₀.rtapi_task_pause _).mono fun _ t t' ⟨ht, e₁⟩ => ?_)
  refine .bind ((ht.rtapi_task_delete _).mono fun _ u u' ⟨hu, e₂⟩ => ?_)
  have hc : u.shm.arena.carved = s.shm.arena.carved := by
    rw [e₂, e₁]
  refine both_walkTo (rel_map (hu.shm.clear_thread (hc.symm ▸ hx)) fun n n' ⟨hn, hc'⟩ => ⟨rfl, ?_⟩)
  exact ⟨hu.renew hn, .of_eq (hc'.trans hc)⟩

theorem create_thread_clock (h : Abreast b s s') (period_nsec : Nat) :
    Both (create_thread_clock R period_nsec) (create_thread_clock R period_nsec) s s'
      fun _ t t' => Abreast b t t' ∧ t.shm = s.shm := by
  unfold Hal.create_thread_clock
  refine .bind ((h.call _).mono fun _ t t' ⟨h, e⟩ => .ite .rfl (fun _ => ?_) fun _ => .pure ⟨h, e⟩)
  refine .bind ((h.call _).mono fun _ u u' ⟨h, e'⟩ => ?_)
  exact .ite .rfl (fun _ => .pure ⟨h, e'.trans e⟩) fun _ => .pure ⟨h, e'.trans e⟩

/-- The end of a creation that failed: the thread is freed. -/
theorem rollback {γ : Type} (h : Abreast b s s') (hx : x ∈ s.shm.arena.carved .thread) {a : γ}
    {Q : γ → State σ → State σ → Prop}
    (hQ : ∀ t t', Abreast b t t' → Retains s t → Q a t t') :
    Both (do Hal.free_thread_struct R x; rtapi_mutex_give; pure a)
      (do Hal.free_thread_struct R x; rtapi_mutex_give; pure a) s s' Q :=
  .bind ((h.free_thread_struct hx).mono fun _ _ _ ⟨h, hk⟩ => h.gives fun t t' h e =>
    hQ t t' h (hk.trans (.of_eq (by rw [e]))))

theorem create_thread_insert (h : Abreast b s s') (hx : x ∈ s.shm.arena.carved .thread)
    (period_nsec : Nat) (uses_fp priority : Int) :
    Both (create_thread_insert R x period_nsec uses_fp priority)
      (create_thread_insert R x period_nsec uses_fp priority) s s' fun r t t' =>
        (Abreast b t t' ∧ Retains s t) ∧ ∀ new, r = some new → new = x := by
  have none_new : ∀ new, (none : Option Nat) = some new → new = x := fun _ e => by cases e
  unfold Hal.create_thread_insert
  refine .get ?_
  rw [h.base, h.module]
  refine .bind (both_change (.bind ?_))
  obtain ⟨huses, htask, hname⟩ := (h.shm.same hx).thread
  obtain ⟨ring, hm⟩ := h.shm
  have h₁ := h.renew ⟨ring, hm.setThread (x := x) (.inl rfl)
    { s.shm.thread x with period := toInt64 period_nsec, priority := priority }
    { s'.shm.thread x with period := toInt64 period_nsec, priority := priority }
    (by simp only [Thread.known, huses, htask, hname]) rfl rfl⟩
  refine (h₁.call _).mono fun task t t' hpost => ?_
  obtain ⟨ht, e⟩ := hpost
  have hk : Retains s t := .of_eq (by rw [e]; rfl)
  refine .ite .rfl (fun _ => ?_) fun _ => .bind (both_change (.bind ?_))
  · exact ht.rollback (hk _ _ hx) fun _ _ h hk' => ⟨⟨h, hk.trans hk'⟩, none_new⟩
  obtain ⟨huses, -, hname⟩ := (ht.shm.same (hk _ _ hx)).thread
  obtain ⟨ring', hn⟩ := ht.shm
  have h₂ := ht.renew ⟨ring', hn.setThread (x := x) (.inl rfl)
    { t.shm.thread x with task_id := task } { t'.shm.thread x with task_id := task }
    (by simp only [Thread.known, huses, hname]) rfl rfl⟩
  refine (h₂.call _).mono fun started u u' hpost => ?_
  obtain ⟨hu, e'⟩ := hpost
  have hk₁ : Retains s u := hk.trans (.of_eq (by rw [e']; rfl))
  refine .ite .rfl (fun _ => .bind ?_) fun _ => .bind (both_change ?_)
  · refine (hu.rtapi_task_delete _).mono fun _ v v' hpost => ?_
    obtain ⟨hv, e''⟩ := hpost
    have hk₂ : Retains s v := hk₁.trans (.of_eq (by rw [e'']))
    exact hv.rollback (hk₂ _ _ hx) fun _ _ h hk' => ⟨⟨h, hk₂.trans hk'⟩, none_new⟩
  have hlisted := hu.shm.insert_head (k := .thread) ⟨by decide, by decide⟩ (hk₁ _ _ hx)
  refine (hu.renew hlisted).gives fun _ _ h e'' => ⟨⟨h, hk₁.trans (.of_eq ?_)⟩, ?_⟩
  · rw [e'']
    rfl
  · rintro _ ⟨⟩
    rfl

/-- A thread that is listed has a structure. -/
theorem create_thread_task (h : Abreast b s s') (name : CStr) (period_nsec : Nat)
    (uses_fp priority : Int) :
    Both (create_thread_task R name period_nsec uses_fp priority)
      (create_thread_task R name period_nsec uses_fp priority) s s' fun made t t' =>
        Abreast b t t' ∧ ∀ new, made = .ok new → new ∈ t.shm.arena.carved .thread := by
  have error_new : ∀ {e : Int} {P : Nat → Prop} new, (.error e : Except Int Nat) = .ok new → P new :=
    fun _ e => by cases e
  unfold Hal.create_thread_task
  refine .bind (h.mutex_get.mono fun _ t t' hpost => .bind ?_)
  obtain ⟨h, -⟩ := hpost
  refine both_walk (h.shm.find_thread_by_name name) fun dup _ => ?_
  refine .ite .rfl (fun _ => h.gives fun _ _ h _ => ⟨h, error_new⟩) fun _ => .bind ?_
  have hnew := h.shm.alloc_thread_struct
  refine both_take hnew.eq ?_
  have hu := h.renew hnew.twins
  refine .ite .rfl (fun _ => hu.gives fun _ _ h _ => ⟨h, error_new⟩) fun h₀ => ?_
  have hx := hnew.mem h₀
  set x := t.shm.alloc_thread_struct.1
  obtain ⟨-, htask, -⟩ := (hnew.twins.same hx).thread
  obtain ⟨ring, hm⟩ := hnew.twins
  have h₁ := hu.renew ⟨ring, hm.setThread (x := x) (.inl rfl)
    { t.shm.alloc_thread_struct.2.thread x with
      uses_fp := uses_fp, name := rt_snprintf (HAL_NAME_LEN + 1) name }
    { t'.shm.alloc_thread_struct.2.thread x with
      uses_fp := uses_fp, name := rt_snprintf (HAL_NAME_LEN + 1) name }
    (by simp only [Thread.known, htask]) rfl rfl⟩
  -- the end, once the period is found to fit
  have hinsert : ∀ {v v' : State σ}, Abreast b v v' → x ∈ v.shm.arena.carved .thread →
      Both (do
          let listed ← Hal.create_thread_insert R x period_nsec uses_fp priority
          return listed.elim (.error (-EINVAL)) .ok : Prog σ (Except Int Nat))
        (do
          let listed ← Hal.create_thread_insert R x period_nsec uses_fp priority
          return listed.elim (.error (-EINVAL)) .ok : Prog σ (Except Int Nat)) v v' fun made t t' =>
        Abreast b t t' ∧ ∀ new, made = .ok new → new ∈ t.shm.arena.carved .thread := by
    intro v v' hv hxv
    refine .bind ((hv.create_thread_insert hxv _ _ _).mono fun listed w w' hpost => ?_)
    obtain ⟨⟨hw, hk⟩, hnew⟩ := hpost
    refine .pure ⟨hw, fun new e => ?_⟩
    cases listed with
    | none => cases e
    | some y =>
        cases e
        rw [hnew _ rfl]
        exact hk _ _ hxv
  refine .bind (both_change (both_look ?_))
  refine .ite (by rw [show _ = _ from (h₁.shm.pool (k := .thread) ⟨by decide, by decide⟩).list])
    (fun _ => .bind ?_) fun _ => hinsert h₁ hx
  refine (h₁.create_thread_clock _).mono fun fits v v' hpost => ?_
  obtain ⟨hv, e⟩ := hpost
  have hxv : x ∈ v.shm.arena.carved .thread := by
    rw [e]
    exact hx
  exact .ite .rfl (fun _ => hinsert hv hxv) fun _ =>
    hv.rollback hxv fun _ _ h _ => ⟨h, error_new⟩

/-! #### The component of a thread -/

/-- The component of the thread `x` is set, to one id in both. -/
theorem setThread_comp (h : Abreast b s s') (x : Nat) (id : Int) :
    Both (change fun m => m.setThread x { m.thread x with comp_id := id })
      (change fun m => m.setThread x { m.thread x with comp_id := id }) s s'
      fun _ t t' => Abreast (b.set x id) t t' ∧ t.shm.arena = s.shm.arena := by
  obtain ⟨ring, hm⟩ := h.shm
  exact both_change ⟨{ h with shm := ⟨ring, hm.setThread_comp x id⟩ }, rfl⟩

theorem create_thread_comp (h : Abreast b s s') (hx : x ∈ s.shm.arena.carved .thread) :
    Both (create_thread_comp R x) (create_thread_comp R x) s s'
      fun _ t t' => ∃ id, Abreast (b.set x id) t t' := by
  unfold Hal.create_thread_comp
  refine .get ?_
  simp only [(h.shm.same hx).thread.2.2, h.base]
  refine .bind ((h.hal_init _).mono fun id t t' ht => .bind ?_)
  refine (ht.1.setThread_comp x id).mono fun _ u u' hu => ?_
  refine .ite .rfl (fun _ => .pure ⟨id, hu.1⟩) fun _ => .bind (both_change (.bind ?_))
  refine ((hu.1.setData _ _ 0).hal_param_new _ _ _ _ _).mono fun r v v' hv => ?_
  refine .ite .rfl (fun _ => .pure ⟨id, hv.1⟩) fun _ => .bind ?_
  refine (hv.1.hal_pin_newf _ _ _ _).with_eq.mono fun r w w' hw => ?_
  refine .ite .rfl (fun _ => .pure ⟨id, hw.2.2.1.1⟩) fun h₀ => .bind ?_
  have hcell := hw.2.2.2 (Decidable.not_not.mp h₀)
  rw [h.mapped, show v.hal_shmem_base = b.base from hv.1.mapped, Nat.add_sub_cancel_left] at hcell
  refine (hw.2.2.1.1.storeThrough hcell 0).mono fun _ y y' hy => .bind ?_
  exact (hy.1.hal_ready id).mono fun _ z z' hz => .pure ⟨id, hz⟩

theorem hal_create_thread (h : Abreast b s s') (name : CStr) (period_nsec : Nat)
    (uses_fp priority : Int) :
    Both (hal_create_thread R name period_nsec uses_fp priority)
      (hal_create_thread R name period_nsec uses_fp priority) s s' fun _ t t' =>
        ∃ b', Abreast b' t t' ∧ b.Finer b' ∧ (Admits s name period_nsec → ∀ new s₁,
          Hal.create_thread_task R name period_nsec uses_fp priority s = .ok (.ok new) s₁ →
            b'.cid' new = b'.cid new) := by
  unfold Hal.hal_create_thread
  refine .get (.ite (by rw [h.data]) (fun h₀ => absurd h₀ h.attached) fun _ => ?_)
  refine .ite .rfl (fun hp => .pure ⟨b, h, .refl b, fun ha => absurd hp ha.1⟩) fun _ => ?_
  refine .ite .rfl (fun hn => .pure ⟨b, h, .refl b, fun ha => absurd hn ha.2.1⟩) fun _ => ?_
  refine .ite (by rw [h.shm.choose_spec.lock])
    (fun hl => .pure ⟨b, h, .refl b, fun ha => absurd hl ha.2.2⟩) fun _ => .bind ?_
  refine (h.create_thread_task _ _ _ _).with_eq.mono fun made t t' ht => ?_
  obtain ⟨hrun, -, ht, hnew⟩ := ht
  cases made with
  | error e =>
      refine .pure ⟨b, ht, .refl b, fun _ new s₁ hmade => ?_⟩
      rw [hrun] at hmade
      cases hmade
  | ok x =>
      refine (ht.create_thread_comp (hnew x rfl)).mono fun _ u u' hu => ?_
      obtain ⟨id, hu⟩ := hu
      refine ⟨_, hu, b.finer_set x id, fun _ new s₁ hmade => ?_⟩
      rw [hrun] at hmade
      cases hmade
      exact b.set_same x id

/-! #### Deleting threads -/

/-- A thread is deleted whose component is the same in both. -/
theorem hal_thread_delete (h : Abreast b s s') (name : CStr)
    (hcid : ∀ prev, (s.shm.arena.pool .thread).seek (fun x => strcmp (s.shm.thread x).name name = 0)
      FUEL .root = some prev → (s.shm.arena.pool .thread).deref prev ≠ 0 →
      b.cid' ((s.shm.arena.pool .thread).deref prev) = b.cid ((s.shm.arena.pool .thread).deref prev)) :
    Both (hal_thread_delete R name) (hal_thread_delete R name) s s' fun _ t t' =>
      ∃ b', Abreast b' t t' ∧ b.Finer b' := by
  have hq : Arena.Queued .thread := ⟨by decide, by decide⟩
  unfold Hal.hal_thread_delete
  refine .get (.ite (by rw [h.data]) (fun _ => .pure ⟨b, h, .refl b⟩) fun _ => ?_)
  refine .ite (by rw [h.shm.choose_spec.lock]) (fun _ => .pure ⟨b, h, .refl b⟩) fun _ => ?_
  refine .ite (by rw [h.shm.choose_spec.state]) (fun _ => .pure ⟨b, h, .refl b⟩) fun _ => ?_
  refine .bind (h.mutex_get.mono fun _ t t' ht => .bind ?_)
  obtain ⟨ht, e⟩ := ht
  have hp := ht.shm.pool hq
  refine both_walk (hp.seek (fun x hx => by rw [(ht.shm.same hx).thread.2.2]) (c := .root) trivial)
    fun prev hprev => both_look ?_
  have hin := hp.seek_in (c := .root) trivial hprev
  rw [hp.deref hin]
  refine .ite .rfl (fun _ => ht.gives fun _ _ h _ => ⟨b, h, .refl b⟩) fun h₀ => both_look ?_
  have hmem := hp.deref_mem hin h₀
  have hid : (t'.shm.thread ((t.shm.arena.pool .thread).deref prev)).comp_id =
      (t.shm.thread ((t.shm.arena.pool .thread).deref prev)).comp_id := by
    rw [(ht.shm.choose_spec.cid _).1, (ht.shm.choose_spec.cid _).2, e]
    rw [e] at hprev h₀
    exact hcid prev hprev h₀
  generalize (t.shm.arena.pool .thread).deref prev = x at *
  rw [hid]
  -- what is left when the component is out of the way
  have hend : ∀ {b' : Bond} {u u' : State σ}, Abreast b' u u' → x ∈ u.shm.arena.carved .thread →
      b.Finer b' → Both (do
          change fun m => m.unlink .thread prev x
          Hal.free_thread_struct R x
          rtapi_mutex_give
          return 0 : Prog σ Int)
        (do
          change fun m => m.unlink .thread prev x
          Hal.free_thread_struct R x
          rtapi_mutex_give
          return 0 : Prog σ Int) u u' fun _ v v' => ∃ b', Abreast b' v v' ∧ b.Finer b' := by
    intro b' u u' hu hx hb
    refine .bind (both_change ?_)
    exact (hu.renew (hu.shm.unlink hq prev hx)).rollback hx fun _ _ hv _ => ⟨b', hv, hb⟩
  refine .ite .rfl (fun _ => .bind ?_) fun _ => hend ht hmem (.refl b)
  refine (ht.hal_exit _).mono fun _ u u' hu => .bind ?_
  refine (hu.1.setThread_comp x 0).mono fun _ v v' hv => ?_
  exact hend hv.1 (hv.2 ▸ hu.2 _ _ hmem) (b.finer_set x 0)

theorem teardown_threads (h : Abreast b s s') (n : Nat) :
    Both (teardown_threads R n) (teardown_threads R n) s s' fun _ => Abreast b := by
  have hq : Arena.Queued .thread := ⟨by decide, by decide⟩
  induction n generalizing s s' with
  | zero => exact .throw
  | succ n ih =>
      unfold Hal.teardown_threads
      have hp := h.shm.pool hq
      refine both_look ?_
      rw [hp.list]
      refine .ite .rfl (fun h₀ => .bind (both_change (.bind ?_))) fun _ => .pure h
      have hmem := hp.list_mem h₀
      exact ((h.renew (h.shm.unlink hq .root hmem)).free_thread_struct hmem).mono fun _ _ _ ht => ih ht.1

theorem hal_app_teardown (h : Abreast b s s') :
    Both (hal_app_teardown R) (hal_app_teardown R) s s' fun _ => Abreast b := by
  obtain ⟨ring, hm⟩ := h.shm
  have h₁ : Abreast b { s with shm := { s.shm with state := .shutting_down } }
      { s' with shm := { s'.shm with state := .shutting_down } } :=
    h.renew ⟨ring, { hm with state := rfl, same := hm.same }⟩
  unfold Hal.hal_app_teardown
  refine .bind (both_change (.bind (h₁.mutex_get.mono fun _ t t' ht => .bind ?_)))
  exact (ht.1.teardown_threads FUEL).mono fun _ u u' hu => hu.mutex_give.mono fun _ _ _ hv => hv.1

/-! ### Flags -/

theorem hal_set_lock (h : Abreast b s s') (lock_type : UInt8) :
    Both (hal_set_lock lock_type) (hal_set_lock lock_type) s s' fun _ => Abreast b := by
  obtain ⟨ring, hm⟩ := h.shm
  unfold Hal.hal_set_lock
  refine .get (.ite (by rw [h.data]) (fun _ => .pure h) fun _ => .bind (both_change (.pure ?_)))
  exact h.renew ⟨ring, { hm with lock := rfl, same := hm.same }⟩

theorem hal_get_lock (h : Abreast b s s') :
    Both hal_get_lock hal_get_lock s s' fun _ => Abreast b := by
  unfold Hal.hal_get_lock
  refine .get (.ite (by rw [h.data]) (fun _ => .pure h) fun _ => ?_)
  rw [h.shm.choose_spec.lock]
  exact .pure h

theorem hal_start_threads (h : Abreast b s s') :
    Both hal_start_threads hal_start_threads s s' fun _ => Abreast b := by
  obtain ⟨ring, hm⟩ := h.shm
  unfold Hal.hal_start_threads
  refine .get (.ite (by rw [h.data]) (fun _ => .pure h) fun _ => ?_)
  refine .ite (by rw [hm.lock]) (fun _ => .pure h) fun _ => ?_
  refine .ite (by rw [hm.state]) (fun _ => .pure h) fun _ => ?_
  refine .ite (by rw [hm.state]) (fun _ => .pure h) fun _ => .bind (both_change (.pure ?_))
  exact h.renew ⟨ring, { hm with state := rfl, threads_running := rfl, same := hm.same }⟩

theorem hal_stop_threads (h : Abreast b s s') :
    Both hal_stop_threads hal_stop_threads s s' fun _ => Abreast b := by
  obtain ⟨ring, hm⟩ := h.shm
  unfold Hal.hal_stop_threads
  refine .get (.ite (by rw [h.data]) (fun _ => .pure h) fun _ => ?_)
  refine .ite (by rw [hm.lock]) (fun _ => .pure h) fun _ => ?_
  refine .ite (by rw [hm.state]) (fun _ => .pure h) fun _ => ?_
  refine .ite (by rw [hm.state]) (fun _ => .pure h) fun _ => .bind (both_change (.pure ?_))
  exact h.renew ⟨ring, { hm with state := rfl, threads_running := rfl, same := hm.same }⟩

theorem hal_get_state (h : Abreast b s s') :
    Both hal_get_state hal_get_state s s' fun _ => Abreast b := by
  unfold Hal.hal_get_state
  refine .get (.ite (by rw [h.data]) (fun _ => .pure h) fun _ => ?_)
  rw [h.shm.choose_spec.state]
  exact .pure h

/-- The statistics, `shmem_avail` included. -/
theorem hal_get_stats (h : Abreast b s s') (stats : Bool) :
    Both (hal_get_stats stats) (hal_get_stats stats) s s' fun _ => Abreast b := by
  unfold Hal.hal_get_stats
  refine .get (.ite (by rw [h.data]) (fun _ => .pure h) fun _ => ?_)
  refine .bind (h.mutex_get.mono fun _ t t' ⟨h, _⟩ => ?_)
  have hcount : ∀ k, Arena.Queued k → t'.shm.count_list k = t.shm.count_list k :=
    fun k hk => h.shm.count_list hk
  refine .bind (both_walk (hcount .comp ⟨by decide, by decide⟩) fun comps _ => .bind ?_)
  refine both_walk (hcount .pin ⟨by decide, by decide⟩) fun pins _ => .bind ?_
  refine both_walk (hcount .param ⟨by decide, by decide⟩) fun params _ => .bind ?_
  refine both_walk (hcount .funct ⟨by decide, by decide⟩) fun functs _ => .bind ?_
  refine both_walk (hcount .thread ⟨by decide, by decide⟩) fun threads _ => both_look ?_
  obtain ⟨ring, hm⟩ := h.shm
  refine .bind (h.mutex_give.mono fun _ u u' ⟨h, _⟩ => ?_)
  simp only [id_eq, hm.state, hm.init_pid, hm.error_code, hm.threads_running, hm.arena.brk]
  exact .pure h

end

end Abreast

end RTS.Hal

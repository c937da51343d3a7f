import RealTimeSystem.Hal.Effects
import RealTimeSystem.System.Boot

/-!
# System — the order and the names of the registry

Functions, parameters and pins are kept in the order of their names, and threads have different
names.  A component gets no name: `hal_init` checks that its name is free and does not store it.
So two components have the same name, the empty one, and the names differ only as long as there is
at most one component.
-/

namespace RTS.Hal

open RTS.Support RTS.Uspace

variable {σ : Type} {R : Rtapi σ} {s s' s₀ : State σ} {L L' : Lists} {op : Op}

/-! ### What an operation does to the components -/

/-- The components stay, or there are fewer, or one was accepted. -/
theorem Effect.labels (h : Inv s L) (he : Effect R s L op s' L') :
    (view s'.shm L').labels = (view s.shm L).labels ∨
      (view s'.shm L').labels.length < (view s.shm L).labels.length ∨
      ∃ s₁ name id, op.Inits R s s₁ name ∧ Accepts R s₁ name ∧
        (view s'.shm L').labels = (id, []) :: (view s.shm L).labels := by
  cases he with
  | calm hc => exact .inl hc.labels
  | init hm hq hrt =>
      rename_i name
      rw [hm.events]
      rcases inits_cases (R := R) h name with ⟨-, -, hnone⟩ | ⟨ha, -, x, c, hevs, hid, hname⟩
      · rw [hnone]
        exact .inl rfl
      · rw [hevs]
        exact .inr (.inr ⟨s, name, c.comp_id, ⟨rfl, rfl⟩, ha, by rw [← hname]; rfl⟩)
  | exit hm hq hrt =>
      rename_i comp_id
      rw [hm.events]
      rcases comps_exit h.good.sound.comps_keys s.shm.state comp_id with ⟨-, hnone⟩ | ⟨-, hlen⟩
      · rw [hnone]
        exact .inl rfl
      · refine .inr (.inl ?_)
        simp only [Registry.labels, List.length_map]
        omega
  | create hc =>
      cases hc with
      | refused _ => exact .inl rfl
      | undone _ _ hm _ => exact .inl (congrArg Registry.labels hm.events)
      | @done th s₁ _ L₁ _ hadm _ hrun hm _ ho =>
          have hlabels : (view s₁.shm L₁).labels = (view s.shm L).labels :=
            (congrArg Registry.labels hm.events).trans rfl
          rw [ho.labels]
          rcases inits_cases (R := R) hm.inv (thread_comp_name th.name) with
            ⟨-, -, hnone⟩ | ⟨ha, -, x, c, hevs, hid, hname⟩
          · rw [hnone]
            exact .inl hlabels
          · rw [hevs]
            refine .inr (.inr ⟨s₁, thread_comp_name th.name, c.comp_id, ?_, ha, ?_⟩)
            · exact ⟨hadm, _, by rw [hm.added.2], hrun⟩
            · rw [← hlabels, ← hname]
              rfl

/-! ### The lists -/

/-- The lists of functions, parameters and pins are in the strict order of the names, and names and
ids are not used twice. -/
structure Ordered (m : Segment) : Prop where
  functs : ∃ xs, Chain (m.arena.pool .funct).next_ptr (m.arena.pool .funct).list_ptr xs ∧
    xs.Pairwise fun x y => strcmp (m.funct x).name (m.funct y).name < 0
  params : ∃ xs, Chain (m.arena.pool .param).next_ptr (m.arena.pool .param).list_ptr xs ∧
    xs.Pairwise fun x y => strcmp (m.param x).name (m.param y).name < 0
  pins : ∃ xs, Chain (m.arena.pool .pin).next_ptr (m.arena.pool .pin).list_ptr xs ∧
    xs.Pairwise fun x y => strcmp (m.pin x).name (m.pin y).name < 0
  comps : ∃ xs, Chain (m.arena.pool .comp).next_ptr (m.arena.pool .comp).list_ptr xs ∧
    (xs.map fun x => (m.comp x).name).Nodup ∧ (xs.map fun x => (m.comp x).comp_id).Nodup
  threads : ∃ xs, Chain (m.arena.pool .thread).next_ptr (m.arena.pool .thread).list_ptr xs ∧
    (xs.map fun x => (m.thread x).name).Nodup

theorem Good.ordered {m : Segment} (h : Good m L) (hone : (L.act .comp).length ≤ 1) :
    Ordered m where
  functs := ⟨_, (h.shape.rep .funct).used, List.pairwise_map.mp h.sound.functs_sorted⟩
  params := ⟨_, (h.shape.rep .param).used, List.pairwise_map.mp h.sound.params_sorted⟩
  pins := ⟨_, (h.shape.rep .pin).used, List.pairwise_map.mp h.sound.pins_sorted⟩
  comps := by
    refine ⟨_, (h.shape.rep .comp).used, ?_⟩
    rcases hl : L.act .comp with _ | ⟨x, _ | ⟨y, ys⟩⟩
    · simp
    · simp
    · rw [hl] at hone
      simp at hone
  threads := by
    refine ⟨_, (h.shape.rep .thread).used, ?_⟩
    have := h.sound.thread_names
    rwa [view, List.map_map] at this

/-! ### Runs -/

variable (R) in
/-- No thread is deleted, and no component is accepted beside another. -/
def Lone (s : State σ) (op : Op) : Prop :=
  ¬ op.Deletes ∧ ∀ s₁ name, op.Inits R s s₁ name → Accepts R s₁ name →
    (s.shm.arena.pool .comp).list_ptr = 0

theorem labels_length (m : Segment) (L : Lists) :
    (view m L).labels.length = (L.act .comp).length := by
  simp [Registry.labels, view, tab]

theorem Runs.lone (hr : Runs R (Lone R) s₀ s) (h : Inv s₀ .empty) :
    ∃ L, Inv s L ∧ (L.act .comp).length ≤ 1 := by
  induction hr with
  | start => exact ⟨_, h, by simp [Lists.empty]⟩
  | @op s s' op _ hsane hop hrun ih =>
      obtain ⟨L, hinv, hone⟩ := ih
      obtain ⟨L', he⟩ := (op.effect hinv hsane hop.1).of_ok hrun
      refine ⟨L', he.inv hinv, ?_⟩
      rw [← labels_length s'.shm]
      rw [← labels_length s.shm] at hone
      rcases he.labels hinv with e | hlt | ⟨s₁, name, id, hi, ha, e⟩
      · rwa [e]
      · omega
      · have hnil := hinv.good.shape.act_nil_iff.mpr (hop.2 s₁ name hi ha)
        rw [e, List.length_cons, labels_length, hnil]
        rfl
  | cycle code t _ ht hrun ih =>
      obtain ⟨L, hinv, hone⟩ := ih
      obtain ⟨cs, data, rt, rfl⟩ := cycle_ran hinv (hinv.good.shape.listed.mp ht) hrun
      exact ⟨L, hinv.ran cs data rt, hone⟩

/-- **The registry is in order** in every run in which no component is accepted beside another. -/
theorem registry_ordered {s₁ : State σ} (h : Boots R s₀ s₁) (hr : Runs R (Lone R) s₁ s) :
    Ordered s.shm :=
  have ⟨_, hinv, hone⟩ := hr.lone h.inv
  hinv.good.ordered hone

theorem registry_ordered_sample :
    Ordered (played (rtapi serving) [.hal_init (some (lit ['c'])),
      .hal_export_funct (lit ['f']) 8 16 0 1 2] started).shm :=
  registry_ordered started_starts.boots (Playable.runs ⟨trivial,
    ⟨id, fun _ _ _ _ => by decide +kernel⟩, by decide +kernel, trivial, ⟨id, fun _ _ h => h.elim⟩,
    by decide +kernel, trivial⟩ .start)

/-- Two components, initialised under different names. -/
def twoComps : State Machine :=
  played (rtapi serving) [.hal_init (some (lit ['a'])), .hal_init (some (lit ['b']))] started

/-- Both names are empty. -/
theorem twoComps_unordered : Reachable (rtapi serving) twoComps ∧ ¬ Ordered twoComps.shm ∧
    twoComps.shm.halpr_find_comp_by_name (lit ['a']) = some 0 := by
  refine ⟨Playable.reachable ⟨trivial, trivial, by decide +kernel, trivial, trivial,
    by decide +kernel, trivial⟩, fun h => ?_, by decide +kernel⟩
  obtain ⟨xs, hxs, hnames, -⟩ := h.comps
  set x := (twoComps.shm.arena.pool .comp).list_ptr with hx
  set y := (twoComps.shm.arena.pool .comp).next_ptr x with hy
  have hxy : Chain (twoComps.shm.arena.pool .comp).next_ptr x [x, y] :=
    ⟨rfl, by decide +kernel, rfl, by decide +kernel, show _ = 0 by decide +kernel⟩
  obtain rfl := hxs.unique hxy
  have hsame : (twoComps.shm.comp x).name = (twoComps.shm.comp y).name := by decide +kernel
  simp [hsame] at hnames

end RTS.Hal

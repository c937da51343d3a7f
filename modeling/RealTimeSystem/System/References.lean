import RealTimeSystem.System.Names

/-!
# System — the references to the UUID segment

Every module takes one reference to the UUID segment in `rtapi_init` and gives it back in
`rtapi_exit`.  The library has one, and each listed component has one.  A reference leaks when the
counter runs over: then `rtapi_init` succeeds with a negative id, which HAL takes for a failure.
-/

namespace RTS.Uspace

open RTS.Support RTS.Hal

variable {K : Kernel} {s s' s₁ : State Machine} {m : Machine} {L L' : Lists} {op : Op}

/-! ### Making a thread -/

theorem task_new_tabled (arg : Addr) (prio owner stacksize uses_fp : Int) :
    Tabled m.process ((rtapi K).task_new arg prio owner stacksize uses_fp m).2.process := by
  rcases task_new_result (K := K) (m := m) arg prio owner stacksize uses_fp with
    ⟨-, h⟩ | ⟨n, t, -, -, -, -, -, h⟩
  · rw [h]
    exact .refl _
  · rw [h]
    exact .setTask _ n _

theorem unmake_tabled (id : Int) : Tabled m.process (unmake (rtapi K) id m).process :=
  (task_pause_result id).toTabled.trans (task_delete_result id).toTabled

theorem make_task_tabled (base : Addr) (module : Int) (new : Nat) (th : Thread) :
    Tabled m.process (make_task (rtapi K) base module new th m).rt.process := by
  simp only [make_task]
  split
  · exact (task_new_tabled ..).trans (unmake_tabled _)
  split
  · exact ((task_new_tabled ..).trans (task_start_result ..).1.toTabled).trans
      ((task_delete_result _).toTabled.trans (unmake_tabled _))
  · exact (task_new_tabled ..).trans (task_start_result ..).1.toTabled

theorem clock_fits_tabled (period_nsec : Nat) :
    Tabled m.process (clock_fits (rtapi K) period_nsec m).2.process := by
  have h₁ := (clock_set_period_result (K := K) (m := m) 0).1
  have h₂ := (clock_set_period_result (K := K) (m := ((rtapi K).clock_set_period 0 m).2)
    (toInt64 period_nsec)).1
  simp only [clock_fits]
  split
  · split <;> exact h₁.trans h₂
  · exact h₁

/-- Making a thread leaves the handles and the counter alone. -/
theorem making_tabled (name : CStr) (period_nsec : Nat) (uses_fp priority : Int) :
    Tabled s.rt.process (making (rtapi K) s L name period_nsec uses_fp priority).rt.process := by
  simp only [making, make_thread]
  split
  · exact .refl _
  split
  · exact .refl _
  split
  · split
    · exact (clock_fits_tabled _).trans (make_task_tabled ..)
    · exact (clock_fits_tabled _).trans (unmake_tabled _)
  · exact make_task_tabled ..

/-! ### Initialising and exiting -/

/-- The next id of `rtapi_init`, as the counter holds it. -/
def Process.next_id (p : Process) : Int := toInt32 (p.uuid p.uuid_data + 1)

theorem Tabled.next_id {p p' : Process} (h : Tabled p p') : p'.next_id = p.next_id := by
  unfold Process.next_id
  rw [h.uuid, h.data]

/-- The process refers to the UUID segment `n` times. -/
def Refers (p : Process) (n : Int) : Prop := Live p ∧ p.refs = n

theorem Refers.tabled {p p' : Process} {n : Int} (h : Refers p n) (ht : Tabled p p') :
    Refers p' n :=
  have ⟨hl, hr⟩ := h.1.tabled ht
  ⟨hl, hr.trans h.2⟩

theorem Refers.init {n : Int} (h : Refers m.process n) (h₀ : 0 ≤ n) (hb : n + 1 < 2 ^ 31)
    (modname : CStr) : ((rtapi K).init modname m).1 = m.process.next_id ∧
      Refers ((rtapi K).init modname m).2.process (n + 1) := by
  obtain ⟨hl, rfl⟩ := h
  obtain ⟨hl', hr', hid, -⟩ := perform_of_every (K := K) (m := m) (hl.init (l := []) hb h₀ modname)
  exact ⟨hid, hl', hr'⟩

theorem Refers.exit {n : Int} (h : Refers m.process n) (h₂ : 2 ≤ n) (hb : n < 2 ^ 31) (id : Int) :
    Refers ((rtapi K).exit id m).2.process (n - 1) := by
  obtain ⟨hl, rfl⟩ := h
  obtain ⟨hl', hr', -⟩ := perform_of_every (K := K) (m := m) (hl.exit (l := []) h₂ hb id)
  exact ⟨hl', hr'⟩

/-- The references after a `hal_init`: one more when it added a component. -/
theorem Refers.hal_init {n : Int} (h : Refers s.rt.process n) (hinv : Inv s L) (h₁ : 1 ≤ n)
    (hb : n + 1 < 2 ^ 31) {name : CStr}
    (hid : ¬ name.length > HAL_NAME_LEN → 0 ≤ s.rt.process.next_id) :
    Refers (init_rt (rtapi K) name (inits (rtapi K) s L name).2 s.rt).process
      (n + (inits (rtapi K) s L name).2.length) := by
  unfold init_rt
  by_cases hn : name.length > HAL_NAME_LEN
  · have hnone : (inits (rtapi K) s L name).2 = [] := congrArg Prod.snd (if_pos hn)
    rw [if_pos hn, hnone]
    simpa using h
  rw [if_neg hn]
  obtain ⟨hr, hrefs⟩ := h.init (K := K) (by omega) hb (rtapi_name name)
  have hpos : ¬ ((rtapi K).init (rtapi_name name) s.rt).1 < 0 := by
    rw [hr]
    exact Int.not_lt.mpr (hid hn)
  rcases inits_cases (R := rtapi K) hinv name with ⟨-, -, hnone⟩ | ⟨-, -, x, c, hevs, -⟩
  · rw [if_pos ⟨hnone, hpos⟩, hnone]
    have := hrefs.exit (K := K) (by omega) hb ((rtapi K).init (rtapi_name name) s.rt).1
    simpa using this
  · rw [if_neg fun h => by rw [hevs] at h; exact absurd h.1 (List.cons_ne_nil _ _), hevs]
    simpa using hrefs

/-! ### One operation -/

/-- One reference for the library, and one for each component. -/
def Balanced (s : State Machine) (L : Lists) : Prop :=
  Refers s.rt.process (1 + (L.act .comp).length)

variable (K) in
/-- No thread is deleted, and the counter has not run over when a component is initialised. -/
def InRange (s : State Machine) (op : Op) : Prop :=
  ¬ op.Deletes ∧ ∀ s₁ name, op.Inits (rtapi K) s s₁ name → ¬ name.length > HAL_NAME_LEN →
    0 ≤ s.rt.process.next_id

theorem comps_short (h : Inv s L) : (1 + (L.act .comp).length : Int) + 1 < 2 ^ 31 := by
  have := h.good.shape.short (k := .comp) (by decide)
  unfold FUEL HAL_SIZE at this
  omega

theorem act_length (m : Segment) (L : Lists) : (L.act .comp).length = (view m L).comps.length := by
  simp [view, tab]

/-- A `hal_init` keeps the balance. -/
theorem Balanced.hal_init (hb : Balanced s L) (h : Inv s L) {name : CStr} {s' : State Machine}
    (hid : ¬ name.length > HAL_NAME_LEN → 0 ≤ s.rt.process.next_id)
    (hrt : s'.rt = init_rt (rtapi K) name (inits (rtapi K) s L name).2 s.rt)
    (hlabels : (view s'.shm L').labels =
      ((view s.shm L).applyAll (inits (rtapi K) s L name).2).labels) : Balanced s' L' := by
  have hlen : (L'.act .comp).length = (L.act .comp).length + (inits (rtapi K) s L name).2.length := by
    rw [← labels_length s'.shm, hlabels, ← labels_length s.shm]
    rcases inits_cases (R := rtapi K) h name with ⟨-, -, hnone⟩ | ⟨-, -, x, c, hevs, -⟩
    · rw [hnone]
      rfl
    · rw [hevs]
      rfl
  have := Refers.hal_init (K := K) hb h (by omega) (comps_short h) hid
  unfold Balanced
  rw [hrt, hlen]
  have he : (1 + ((L.act .comp).length + (inits (rtapi K) s L name).2.length : Nat) : Int) =
    1 + (L.act .comp).length + (inits (rtapi K) s L name).2.length := by omega
  rwa [he]

theorem Balanced.effect (hb : Balanced s L) (h : Inv s L) (hop : InRange K s op)
    (he : Effect (rtapi K) s L op s' L') : Balanced s' L' := by
  cases he with
  | calm hc =>
      unfold Balanced
      rw [← labels_length s'.shm, hc.labels, labels_length, hc.rt]
      exact hb
  | init hm hq hrt =>
      exact hb.hal_init h (fun hn => hop.2 s _ ⟨rfl, rfl⟩ hn) hrt (congrArg Registry.labels hm.events)
  | exit hm hq hrt =>
      rename_i comp_id
      have hshort := comps_short h
      unfold Balanced
      rw [act_length s'.shm, hm.events, hrt]
      rcases comps_exit h.good.sound.comps_keys s.shm.state comp_id with ⟨hr, hnone⟩ | ⟨hr, hlen⟩
      · rw [hnone, if_neg hr]
        rw [Balanced, act_length s.shm] at hb
        exact hb
      · rw [if_pos hr]
        rw [← act_length s.shm] at hlen
        have := Refers.exit (K := K) hb (by omega) (by omega) comp_id
        have he : (1 + ((view s.shm L).applyAll
            ((view s.shm L).exit s.shm.state comp_id).2).comps.length : Int) =
          1 + (L.act .comp).length - 1 := by omega
        rwa [he]
  | create hc =>
      have hmade : ∀ {s₁ : State Machine} {L₁ : Lists} {name period_nsec uses_fp priority},
          Tasked s L (making (rtapi K) s L name period_nsec uses_fp priority).rt
            (making (rtapi K) s L name period_nsec uses_fp priority).struck s₁ →
          (view s₁.shm L₁).labels = (view s.shm L).labels →
          Balanced s₁ L₁ ∧ s₁.rt.process.next_id = s.rt.process.next_id := by
        intro s₁ L₁ name period_nsec uses_fp priority ht hl
        have htab : Tabled s.rt.process s₁.rt.process := by
          rw [ht.rt]
          exact making_tabled ..
        refine ⟨?_, htab.next_id⟩
        unfold Balanced
        rw [← labels_length s₁.shm, hl, labels_length]
        exact Refers.tabled hb htab
      cases hc with
      | refused _ => exact hb
      | undone _ _ hm ht => exact (hmade ht (congrArg Registry.labels hm.events)).1
      | @done th s₁ _ L₁ _ hadm _ hrun hm ht ho =>
          obtain ⟨hb₁, hid⟩ := hmade ht ((congrArg Registry.labels hm.events).trans rfl)
          refine hb₁.hal_init hm.inv (fun hn => ?_) ho.rt ho.labels
          rw [hid]
          exact hop.2 s₁ _ ⟨hadm, _, by rw [hm.added.2], hrun⟩ hn

/-! ### Runs -/

/-- The UUID segment is mapped, and its handle has one reference for the library and one for each
component on the list. -/
def ReferencesBalanced (s : State Machine) : Prop :=
  Live s.rt.process ∧ ∃ comps,
    Chain (s.shm.arena.pool .comp).next_ptr (s.shm.arena.pool .comp).list_ptr comps ∧
      s.rt.process.refs = 1 + comps.length

theorem Balanced.references (hb : Balanced s L) (h : Inv s L) : ReferencesBalanced s :=
  ⟨hb.1, L.act .comp, (h.good.shape.rep .comp).used, hb.2⟩

theorem Runs.balanced (hr : Runs (rtapi K) (InRange K) s₁ s) (h : Inv s₁ .empty)
    (hb : Balanced s₁ .empty) : ∃ L, Inv s L ∧ Balanced s L := by
  induction hr with
  | start => exact ⟨_, h, hb⟩
  | op op _ hsane hop hrun ih =>
      obtain ⟨L, hinv, hb⟩ := ih
      obtain ⟨L', he⟩ := (op.effect hinv hsane hop.1).of_ok hrun
      exact ⟨L', he.inv hinv, hb.effect hinv hop he⟩
  | @cycle s s' code t _ ht hrun ih =>
      obtain ⟨L, hinv, hb⟩ := ih
      have hproc : s'.rt.process = s.rt.process :=
        thread_task_cycle_rt (P := fun rt => rt.process = s.rt.process) (fun _ h => h) code t rfl hrun
      obtain ⟨cs, data, rt, rfl⟩ := cycle_ran hinv (hinv.good.shape.listed.mp ht) hrun
      refine ⟨L, hinv.ran cs data rt, ?_⟩
      unfold Balanced
      rw [hproc]
      exact hb

/-- **Every reference is balanced** in a run in which the counter does not run over. -/
theorem references_balanced (h : Starts K s₁) (hr : Runs (rtapi K) (InRange K) s₁ s) :
    ReferencesBalanced s :=
  have hb : Balanced s₁ .empty := ⟨h.attached.live, by rw [h.attached.refs]; rfl⟩
  have ⟨_, hinv, hb⟩ := Runs.balanced hr h.inv hb
  hb.references hinv

theorem references_balanced_sample :
    ReferencesBalanced (played (rtapi serving) [.hal_init (some (lit ['c'])),
      .hal_create_thread (lit ['t']) 1000000 0 50, .hal_exit 2] started) :=
  references_balanced started_starts (Playable.runs ⟨trivial,
    ⟨id, fun _ _ _ _ => by decide +kernel⟩, by decide +kernel, trivial,
    ⟨id, fun _ _ _ _ => by decide +kernel⟩, by decide +kernel, trivial,
    ⟨id, fun _ _ h => h.elim⟩, by decide +kernel, trivial⟩ .start)

/-- The counter that is mapped has room for one more module. -/
def exhausted (n : Nat) : (c : Call) → c.Answer
  | .shmat id => .ok ⟨if id = UUID_KEY then 4096 else 65536, serving_ne id, 2 ^ 31 - 2⟩
  | c => serving n c

/-- The second module gets a negative id: `hal_init` fails and keeps the reference. -/
theorem exhausted_unbalanced : ∃ s₁ s, Starts exhausted s₁ ∧
    Runs (rtapi exhausted) (fun _ _ => True) s₁ s ∧ s.rt.process.refs = 2 ∧
    (s.shm.arena.pool .comp).list_ptr = 0 ∧ ¬ ReferencesBalanced s := by
  set s₁ := after (hal_app_main (rtapi exhausted)) fresh with hs₁
  have hstarts : hal_app_main (rtapi exhausted) fresh = .ok 0 s₁ := by rfl
  set s := played (rtapi exhausted) [.hal_init (some (lit ['a']))] s₁ with hs
  have hrefs : s.rt.process.refs = 2 := by decide +kernel
  have hnone : (s.shm.arena.pool .comp).list_ptr = 0 := by decide +kernel
  refine ⟨s₁, s, hstarts, Playable.runs ⟨trivial, trivial, by decide +kernel, trivial⟩ .start, hrefs,
    hnone, fun h => ?_⟩
  obtain ⟨-, comps, hcomps, hcount⟩ := h
  obtain rfl := hcomps.unique (show Chain _ _ [] from hnone)
  rw [hrefs] at hcount
  cases hcount

end RTS.Uspace

import RealTimeSystem.Hal.Abstract
import RealTimeSystem.Hal.Entries

/-!
# HAL — components come and go

`hal_exit` unlinks the component and frees what belongs to it in two sweeps over lists.
`sweep_run` is the sweep over any list, for a relation between the segment and the registry that
each step keeps; `Cleaning` is that relation.  Between the unlinking and the end the segment holds
functions whose component is not listed, so the registry that is kept sound (`Cleaning.sound`) is
the one that still has it.

**`hal_exit_spec`**: `hal_exit` is `Registry.exit`.
-/

namespace RTS.Hal

open RTS.Support

variable {σ : Type}

/-! ### Sweeps -/

/-- **A sweep.**  What belongs to the component is unlinked and freed, the rest of the list
stays. -/
theorem sweep_run {R : Segment → Lists → Registry → Prop} {k : Kind}
    (owned : Segment → Nat → Bool) (free : Segment → Nat → Option Segment) (ev : Nat → Event)
    (hshape : ∀ {m L g}, R m L g → Shape m.arena L)
    (hstep : ∀ {m L g xs y ys}, R m L g → L.act k = xs ++ y :: ys → owned m y = true →
      ∃ m' L', free (m.unlink k (Link.of xs) y) y = some m' ∧ R m' L' (g.apply (ev y)) ∧
        L'.act k = xs ++ ys ∧ ∀ z ∈ xs ++ ys, owned m' z = owned m z)
    {m : Segment} {L : Lists} {g : Registry} {xs ys : List Nat} {fuel : Nat} (h : R m L g)
    (hs : L.act k = xs ++ ys) (hfuel : ys.length < fuel) :
    ∃ m' L', Segment.sweep k owned free fuel m (Link.of xs) = some m' ∧
      R m' L' (g.applyAll ((ys.filter (owned m)).map ev)) ∧
      L'.act k = xs ++ ys.filter (fun z => !owned m z) ∧
      ∀ z ∈ xs ++ ys.filter (fun z => !owned m z), owned m' z = owned m z := by
  induction ys generalizing m L g xs fuel with
  | nil =>
      obtain ⟨n, rfl⟩ : ∃ n, fuel = n + 1 := ⟨fuel - 1, by simp at hfuel; omega⟩
      have hd : (m.arena.pool k).deref (Link.of xs) = 0 :=
        Pool.Rep.deref_of (show Chain _ _ (xs ++ []) from hs ▸ ((hshape h).rep k).used)
      exact ⟨m, L, by simp [Segment.sweep, hd], by simpa using h, by simpa using hs,
        fun _ _ => rfl⟩
  | cons y ys ih =>
      obtain ⟨n, rfl⟩ : ∃ n, fuel = n + 1 := ⟨fuel - 1, by simp at hfuel; omega⟩
      have hd : (m.arena.pool k).deref (Link.of xs) = y :=
        Pool.Rep.deref_of (show Chain _ _ (xs ++ y :: ys) from hs ▸ ((hshape h).rep k).used)
      have hy0 : y ≠ 0 := (hshape h).act_ne_zero (k := k) (by simp [hs])
      have hfuel' : ys.length < n := by simp at hfuel; omega
      rw [Segment.sweep]
      simp only [hd, if_neg hy0]
      by_cases ho : owned m y = true
      · obtain ⟨m₁, L₁, e₁, h₁, hs₁, hk₁⟩ := hstep h hs ho
        obtain ⟨m₂, L₂, e₂, h₂, hs₂, hk₂⟩ := ih h₁ hs₁ hfuel'
        have hin : ys.filter (owned m₁) = ys.filter (owned m) :=
          List.filter_congr fun z hz => hk₁ z (by simp [hz])
        have hout : (ys.filter fun z => !owned m₁ z) = ys.filter fun z => !owned m z :=
          List.filter_congr fun z hz => by rw [hk₁ z (by simp [hz])]
        rw [hin] at h₂
        rw [hout] at hs₂ hk₂
        rw [if_pos ho, e₁, List.filter_cons_of_pos ho, List.filter_cons_of_neg (by simp [ho])]
        refine ⟨m₂, L₂, e₂, h₂, hs₂, fun z hz => (hk₂ z hz).trans (hk₁ z ?_)⟩
        simp at hz ⊢
        tauto
      · have ho' : owned m y = false := by simpa using ho
        have hs' : L.act k = (xs ++ [y]) ++ ys := by simp [hs]
        obtain ⟨m₂, L₂, e₂, h₂, hs₂, hk₂⟩ := ih h hs' hfuel'
        rw [Link.of_append_singleton] at e₂
        rw [if_neg ho, List.filter_cons_of_neg ho, List.filter_cons_of_pos (by simp [ho']),
          List.append_cons]
        exact ⟨m₂, L₂, e₂, h₂, hs₂, hk₂⟩

/-- A parameter is dropped. -/
theorem drop_param {m : Segment} {L : Lists} {x : Nat} {xs ys : List Nat} (h : Shape m.arena L)
    (hp : Plain m) (hh : L.hand .param = []) (hs : L.act .param = xs ++ x :: ys) :
    ∃ m' L', some ((m.unlink .param (Link.of xs) x).free_param_struct x) = some m' ∧
      Shape m'.arena L' ∧ Plain m' ∧ L'.act .param = xs ++ ys ∧ Aside .param m L m' L' ∧
      (∀ z, z ≠ x → m'.param z = m.param z) ∧ m'.funct = m.funct ∧
      view m' L' = (view m L).apply (.dropParam x) := by
  have h₁ := h.pull (by decide) hs
  have hhand : (L.pull .param (xs ++ ys) x).hand .param = [x] := by simp [Lists.pull, hh]
  have h₂ := h₁.drop (by decide) (by decide) hhand
  have hfree : (m.unlink .param (Link.of xs) x).free_param_struct x = { m with
      arena := (m.arena.setPool .param ((m.arena.pool .param).unlink (Link.of xs) x)).setPool .param
        (((m.arena.setPool .param ((m.arena.pool .param).unlink (Link.of xs) x)).pool
          .param).pushFree x)
      param := Function.update m.param x { m.param x with
        data_ptr := 0, owner_ptr := 0, type := .uninitialized, name := [] } } := by
    simp [Segment.free_param_struct, Segment.unlink, Segment.setParam, Segment.pushFree,
      Segment.onArena, (hp x).2]
  have hact : ∀ k', ((L.pull .param (xs ++ ys) x).drop .param x).act k' =
      if k' = .param then xs ++ ys else L.act k' := fun k' => by
    by_cases hk : k' = .param
    · subst hk; simp [Lists.pull]
    · simp [Lists.pull, hk]
  rw [hfree]
  refine ⟨_, _, rfl, h₂, fun y => ⟨(hp y).1, ?_⟩, by simp [hact], ⟨.of_eq rfl rfl,
    fun k' hk' => by simp [hact, hk'], by simp [Lists.drop, Lists.pull], rfl, rfl, rfl, rfl, rfl⟩,
    fun z hz => Function.update_of_ne hz _ _, rfl, ?_⟩
  · by_cases hy : y = x
    · subst hy; simpa using (hp y).2
    · simpa [hy] using (hp y).2
  · unfold view Registry.apply
    simp only [hact, reduceCtorEq, if_false, if_true]
    congr 1
    rw [hs]
    exact tab_drop (notMem_of_split h hs) fun z hz =>
      Function.update_of_ne (ne_of_mem_of_not_mem hz (notMem_of_split h hs)) _ _

/-! ### Freeing a component -/

/-- Between the unlinking of the component `x` in `m₀` and the end of `free_comp_struct`: `g` is the
registry that still lists it. -/
structure Cleaning (x : Nat) (m₀ : Segment) (L₀ : Lists) (m : Segment) (L : Lists)
    (g : Registry) : Prop where
  shape : Shape m.arena L
  plain : Plain m
  sound : g.Sound
  view : view m L = g.apply (.dropComp x)
  hand : L.hand = L₀.hand
  comps : L.act .comp = L₀.act .comp
  comp : m.comp = m₀.comp
  grown : Grown m₀.arena m.arena
  mutex : m.mutex = m₀.mutex
  lock : m.lock = m₀.lock
  state : m.state = m₀.state

namespace Cleaning

variable {x y : Nat} {m₀ m m' : Segment} {L₀ L L' : Lists} {g : Registry}

/-- The next state of a sweep of the lists of a kind `k`. -/
theorem next {k : Kind} {ev : Event} (h : Cleaning x m₀ L₀ m L g) (hk : k ≠ .comp)
    (hshape : Shape m'.arena L') (hplain : Plain m') (ha : Aside k m L m' L')
    (hv : Hal.view m' L' = (Hal.view m L).apply ev)
    (hev : (g.apply (.dropComp x)).apply ev = (g.apply ev).apply (.dropComp x))
    (hok : ev.Ok g) : Cleaning x m₀ L₀ m' L' (g.apply ev) where
  shape := hshape
  plain := hplain
  sound := h.sound.apply hok
  view := by rw [hv, h.view, hev]
  hand := ha.hand.trans h.hand
  comps := (ha.act _ (Ne.symm hk)).trans h.comps
  comp := ha.comp.trans h.comp
  grown := h.grown.trans ha.grown
  mutex := ha.mutex.trans h.mutex
  lock := ha.lock.trans h.lock
  state := ha.state.trans h.state

theorem users (h : Cleaning x m₀ L₀ m L g) (hy : y ∈ L.act .funct) :
    (m.funct y).users = calls y (Hal.view m L).entries := by
  have hf : g.functs = (Hal.view m L).functs := by rw [h.view]; rfl
  have he : g.entries = (Hal.view m L).entries := by rw [h.view]; rfl
  have := h.sound.counted (y, m.funct y) (by rw [hf]; exact mem_tab.mpr ⟨hy, rfl⟩)
  rwa [he] at this

end Cleaning

/-- What a sweep drops, read off the table. -/
theorem map_owned {α : Type} {f : Nat → α} {ys : List Nat} {p : α → Bool} {ev : Nat → Event} :
    (ys.filter fun y => p (f y)).map ev = ((tab f ys).filter fun q => p q.2).map fun q => ev q.1 := by
  rw [filter_tab, tab, List.map_map]
  rfl

theorem applyAll_dropFunct (g : Registry) (ys : List Nat) :
    (g.applyAll (ys.map .dropFunct)).params = g.params :=
  Registry.applyAll_keeps (f := Registry.params) fun ev hev _ => by
    obtain ⟨y, -, rfl⟩ := List.mem_map.mp hev
    rfl

theorem applyAll_dropParam (g : Registry) (ys : List Nat) :
    (g.applyAll (ys.map .dropParam)).functs = g.functs :=
  Registry.applyAll_keeps (f := Registry.functs) fun ev hev _ => by
    obtain ⟨y, -, rfl⟩ := List.mem_map.mp hev
    rfl

/-- **The two sweeps of `free_comp_struct`.** -/
theorem sweeps_run {m : Segment} {L : Lists} {g : Registry} {x : Nat}
    (h : Cleaning x m L m L g) (hidle : ∀ k, k ≠ .comp → L.hand k = []) :
    ∃ m₁ m₂ L₂ g₂, Segment.sweep .funct (fun m y => (m.funct y).owner_ptr = x)
        Segment.free_funct_struct FUEL m .root = some m₁ ∧
      Segment.sweep .param (fun m y => (m.param y).owner_ptr = x)
        (fun m y => some (m.free_param_struct y)) FUEL m₁ .root = some m₂ ∧
      Cleaning x m L m₂ L₂ g₂ ∧ g₂.applyAll [.dropComp x] = g.applyAll (g.leave x) ∧
      (Event.dropComp x).Ok g₂ := by
  obtain ⟨m₁, L₁, e₁, h₁, hs₁, hk₁⟩ := sweep_run (R := Cleaning x m L) (k := .funct)
    (fun m y => (m.funct y).owner_ptr = x) Segment.free_funct_struct .dropFunct (fun h => h.shape)
    (fun {m₁ L₁ g₁ xs y ys} h₁ hs _ => by
      obtain ⟨m', L', e, hsh, hp, hact, ha, hf, -, hv⟩ := drop_funct h₁.shape h₁.plain
        (by rw [h₁.hand, hidle _ (by decide)]) hs (h₁.users (by simp [hs]))
      refine ⟨m', L', e, h₁.next (by decide) hsh hp ha hv rfl trivial, hact, fun z hz => ?_⟩
      rw [hf z (ne_of_mem_of_not_mem hz (notMem_of_split h₁.shape hs))])
    h (List.nil_append _).symm (h.shape.short (by decide))
  obtain ⟨m₂, L₂, e₂, h₂, hs₂, hk₂⟩ := sweep_run (R := Cleaning x m L) (k := .param)
    (fun m y => (m.param y).owner_ptr = x) (fun m y => some (m.free_param_struct y)) .dropParam
    (fun h => h.shape)
    (fun {m₁ L₁ g₁ xs y ys} h₁ hs _ => by
      obtain ⟨m', L', e, hsh, hp, hact, ha, hf, -, hv⟩ := drop_param h₁.shape h₁.plain
        (by rw [h₁.hand, hidle _ (by decide)]) hs
      refine ⟨m', L', e, h₁.next (by decide) hsh hp ha hv rfl trivial, hact, fun z hz => ?_⟩
      rw [hf z (ne_of_mem_of_not_mem hz (notMem_of_split h₁.shape hs))])
    h₁ (List.nil_append _).symm (h₁.shape.short (by decide))
  rw [List.nil_append] at hs₁ hs₂ hk₁ hk₂
  set g₁ := g.applyAll (((L.act .funct).filter fun y => (m.funct y).owner_ptr = x).map .dropFunct)
    with hg₁
  set g₂ := g₁.applyAll (((L₁.act .param).filter fun y => (m₁.param y).owner_ptr = x).map
    .dropParam) with hg₂
  have hparams : g₁.params = g.params := applyAll_dropFunct g _
  have hfuncts : g₂.functs = g₁.functs := applyAll_dropParam g₁ _
  refine ⟨m₁, m₂, L₂, g₂, e₁, e₂, h₂, ?_, fun p hp => ?_, fun p hp => ?_⟩
  · have ht : tab m.funct (L.act .funct) = g.functs := congrArg Registry.functs h.view
    have ht₁ : tab m₁.param (L₁.act .param) = g.params :=
      (congrArg Registry.params h₁.view).trans hparams
    rw [Registry.leave, Registry.applyAll_append, Registry.applyAll_append, hg₂, hg₁,
      map_owned (p := fun f : Funct => decide (f.owner_ptr = x)),
      map_owned (p := fun f : Param => decide (f.owner_ptr = x)), ht, ht₁]
  · have ht : tab m₁.funct (L₁.act .funct) = g₂.functs :=
      (congrArg Registry.functs h₁.view).trans hfuncts.symm
    rw [← ht] at hp
    obtain ⟨hp₁, hp₂⟩ := mem_tab.mp hp
    have hk := hk₁ p.1 (hs₁ ▸ hp₁)
    rw [hs₁] at hp₁
    have := (List.mem_filter.mp hp₁).2
    rw [hp₂]
    simp_all
  · have ht : tab m₂.param (L₂.act .param) = g₂.params := congrArg Registry.params h₂.view
    rw [← ht] at hp
    obtain ⟨hp₁, hp₂⟩ := mem_tab.mp hp
    have hk := hk₂ p.1 (hs₂ ▸ hp₁)
    rw [hs₂] at hp₁
    have := (List.mem_filter.mp hp₁).2
    rw [hp₂]
    simp_all

/-- A component that `hal_exit` found first is the one `halpr_find_comp_by_id` finds. -/
theorem findComp_split {m : Segment} {L : Lists} {x : Nat} {xs ys : List Nat} {comp_id : Int}
    (hs : L.act .comp = xs ++ x :: ys) (hx : (m.comp x).comp_id = comp_id)
    (hxs : ∀ z ∈ xs, (m.comp z).comp_id ≠ comp_id) :
    (view m L).findComp comp_id = some (x, m.comp x) := by
  have hnone : (tab m.comp xs).find? (fun p => p.2.comp_id = comp_id) = none :=
    List.find?_eq_none.mpr fun p hp => by
      obtain ⟨hp₁, hp₂⟩ := mem_tab.mp hp
      rw [hp₂]
      simpa using hxs p.1 hp₁
  have htab : tab m.comp (xs ++ x :: ys) = tab m.comp xs ++ (x, m.comp x) :: tab m.comp ys := by
    simp [tab]
  simp only [Registry.findComp, view, hs, htab, List.find?_append, hnone]
  simp [hx]

/-- The end of `free_comp_struct`: nothing of the component is left but its pins. -/
theorem free_comp_struct_eq {m : Segment} {L : Lists} {x : Nat} {xs ys : List Nat} (hg : Good m L)
    (hi : Idle L) (hs : L.act .comp = xs ++ x :: ys) :
    ∃ m' L', (m.unlink .comp (Link.of xs) x).free_comp_struct x = some m' ∧ Good m' L' ∧ Idle L' ∧
      view m' L' = (view m L).applyAll ((view m L).leave x) ∧ Grown m.arena m'.arena ∧
      m'.mutex = m.mutex ∧ m'.lock = m.lock ∧ m'.state = m.state := by
  have hx := notMem_of_split hg.shape hs
  have hact : ∀ k', (L.pull .comp (xs ++ ys) x).act k' =
      if k' = .comp then xs ++ ys else L.act k' := fun k' => by
    by_cases hk : k' = .comp
    · subst hk; simp [Lists.pull]
    · simp [Lists.pull, hk]
  have h₀ : Cleaning x (m.unlink .comp (Link.of xs) x) (L.pull .comp (xs ++ ys) x)
      (m.unlink .comp (Link.of xs) x) (L.pull .comp (xs ++ ys) x) (view m L) :=
    { shape := hg.shape.pull (by decide) hs
      plain := hg.plain
      sound := hg.sound
      view := by
        unfold view Registry.apply
        simp only [hact, reduceCtorEq, if_false, if_true]
        congr 1
        rw [hs]
        exact tab_drop hx fun _ _ => rfl
      hand := rfl
      comps := rfl
      comp := rfl
      grown := .refl _
      mutex := rfl
      lock := rfl
      state := rfl }
  obtain ⟨m₁, m₂, L₂, g₂, e₁, e₂, h₂, hev, hok⟩ := sweeps_run h₀ fun k hk => by
    simp [Lists.pull, Function.update_of_ne hk, hi k]
  have hhand : L₂.hand .comp = [x] := by rw [h₂.hand]; simp [Lists.pull, hi .comp]
  have hx₂ : x ∉ L₂.act .comp := by rw [h₂.comps, hact, if_pos rfl]; exact hx
  set m₃ := (m₂.setComp x { m₂.comp x with
    comp_id := 0, mem_id := 0, type := .user, shmem_base := 0, name := [] }).pushFree .comp x with hm₃
  have hsame : Same m₂ L₂ m₃ (L₂.drop .comp x) :=
    { Same.refl m₂ L₂ with
      comp := fun y hy => Function.update_of_ne (ne_of_mem_of_not_mem hy hx₂) _ _ }
  have hv := hsame.view_eq.trans h₂.view
  refine ⟨m₃, L₂.drop .comp x, ?_, ⟨h₂.shape.drop (by decide) (by decide) hhand,
    hv ▸ h₂.sound.apply hok, h₂.plain⟩, fun k => ?_, hv.trans hev, ?_, h₂.mutex, h₂.lock,
    h₂.state⟩
  · rw [Segment.free_comp_struct, e₁, Option.bind_some, e₂, Option.map_some]
  · by_cases hk : k = .comp
    · subst hk; simp [Lists.drop, hhand]
    · simp [Lists.drop, h₂.hand, Lists.pull, hi k]
  · exact ((Grown.of_eq rfl rfl : Grown m.arena (m.unlink .comp (Link.of xs) x).arena).trans
      h₂.grown).trans (.of_eq rfl rfl)

/-- **`hal_exit`.**  It is the abstract operation, and tells RTAPI when it succeeds. -/
theorem hal_exit_spec (R : Rtapi σ) {s : State σ} {L : Lists} (h : Inv s L) (comp_id : Int) :
    Returns (hal_exit R comp_id) s fun r s' =>
      r = ((view s.shm L).exit s.shm.state comp_id).1 ∧
      (∃ L', Moved s L ((view s.shm L).exit s.shm.state comp_id).2 s' L') ∧ Quiet s s' ∧
      s'.rt = if r = 0 then (R.exit comp_id s.rt).2 else s.rt := by
  unfold hal_exit
  simp only [returns_bind, returns_get]
  refine .ite (fun h₀ => absurd h₀ h.attached) fun _ => ?_
  refine .ite (fun hd => ?_) fun hd => ?_
  · rw [Registry.exit, if_pos hd]
    exact ⟨rfl, ⟨L, .refl h⟩, .refl s, rfl⟩
  rw [Registry.exit, if_neg hd]
  unfold Returns
  set m : Segment := { s.shm with mutex := true } with hm
  have hg : Good m L := h.locked
  rw [wp_bind, wp_open h.attached h.unlocked, wp_bind]
  rcases seek_cases hg.shape (k := .comp) (by decide) (fun x => (m.comp x).comp_id = comp_id) with
    ⟨prev, hseek, hderef, hno⟩ | ⟨xs, x, ys, hs, hx0, hx, hxs, hseek, hderef⟩
  · have hv : (view s.shm L).findComp comp_id = none := by
      refine List.find?_eq_none.mpr fun p hp => ?_
      obtain ⟨hp₁, hp₂⟩ := mem_tab.mp hp
      rw [hp₂]
      simpa using hno p.1 hp₁
    rw [wp_walk_opened hseek, wp_bind, wp_look_opened, hderef, if_pos rfl, wp_bind, wp_close rfl, hv]
    exact ⟨rfl, ⟨L, .closed h hg h.idle rfl rfl rfl⟩, ⟨.refl _, rfl, rfl⟩, rfl⟩
  · have hv : (view s.shm L).findComp comp_id = some (x, m.comp x) :=
      findComp_split hs (by simpa using hx) fun z hz => by simpa using hxs z hz
    obtain ⟨m', L', e, hg', hi', hv', hgr, hmx, hl, hst⟩ := free_comp_struct_eq hg h.idle hs
    rw [wp_walk_opened hseek, wp_bind, wp_look_opened, hderef, if_neg hx0, wp_bind,
      wp_change_opened, wp_bind, wp_walkTo_opened (by rw [e]; rfl), wp_bind, wp_close hmx, hv]
    exact ⟨rfl, ⟨L', (Moved.closed h hg' hi' hv' hl hst).outside _ _ _⟩, ⟨hgr, rfl, rfl⟩, rfl⟩

/-! ### Creating a component -/

theorem alloc_comp_cases {m : Segment} {L : Lists} (h : Shape m.arena L) :
    ((m.arena.alloc .comp).1 = 0 ∧ m.halpr_alloc_comp_struct = (0, m)) ∨
      ∃ x a, (m.arena.alloc .comp).1 = x ∧ x ≠ 0 ∧ Grown m.arena a ∧ Shape a (L.grab .comp x) ∧
        m.halpr_alloc_comp_struct = (x, { m with arena := a }.setComp x { m.comp x with
          comp_id := 0, mem_id := 0, type := .user, shmem_base := 0, name := [] }) := by
  rcases h.alloc_or (k := .comp) (by decide) (by decide) with ha | ⟨x, a, ha, h0, hg, hs⟩
  · exact .inl ⟨by rw [ha], by simp [Segment.halpr_alloc_comp_struct, ha]⟩
  · exact .inr ⟨x, a, by rw [ha], h0, hg, hs, by simp [Segment.halpr_alloc_comp_struct, ha, h0]⟩

/-- A new component `x` with the record `c` at the head of the list. -/
theorem insert_comp {m : Segment} {L : Lists} {a : Arena} {x : Nat} {c : Comp} (hg : Good m L)
    (hi : Idle L) (hs : Shape a (L.grab .comp x)) :
    ∃ a' L', ({ m with arena := a, comp := Function.update m.comp x c } : Segment).insert_head
        .comp x = { m with arena := a', comp := Function.update m.comp x c } ∧ Grown a a' ∧
      Good { m with arena := a', comp := Function.update m.comp x c } L' ∧ Idle L' ∧
      view { m with arena := a', comp := Function.update m.comp x c } L' =
        (view m L).apply (.addComp x c) := by
  have hx : x ∉ L.act .comp := hs.grab_fresh (by decide)
  have hp := hs.put (by decide) (hi.grab_hand .comp x)
    (show (L.grab .comp x).act .comp = [] ++ L.act .comp from rfl)
  have hv : view { m with
        arena := a.setPool .comp ((a.pool .comp).insertAt (Link.of []) x)
        comp := Function.update m.comp x c }
      ((L.grab .comp x).put .comp ([] ++ x :: L.act .comp)) = (view m L).apply (.addComp x c) := by
    have htab : tab (Function.update m.comp x c) (x :: L.act .comp) =
        (x, c) :: tab m.comp (L.act .comp) := by
      rw [← tab_update hx (a := c)]
      simp [tab]
    simp [view, Registry.apply, Lists.put, Lists.grab, slot, htab]
  refine ⟨_, _, rfl, .of_eq rfl rfl, ⟨hp, ?_, hg.plain⟩, hi.grab_put .comp x _, hv⟩
  exact hv ▸ hg.sound.addComp (by simpa [Event.Ok, view] using hx)

/-- The part of `hal_init` under the mutex: an error, or the new component. -/
def init_insert (name : CStr) (comp_id : Int) : Prog σ (Except Int Nat) := do
  rtapi_mutex_get
  let dup ← walk fun m => m.halpr_find_comp_by_name (rt_snprintf (HAL_NAME_LEN + 1) name)
  if dup ≠ 0 then
    rtapi_mutex_give
    return .error (-EINVAL)
  let comp ← take Segment.halpr_alloc_comp_struct
  if comp = 0 then
    rtapi_mutex_give
    return .error (-ENOMEM)
  let s ← get
  change fun m => m.setComp comp { m.comp comp with
    comp_id := comp_id, type := .realtime, pid := 0, ready := 0, shmem_base := s.hal_shmem_base,
    insmod_args := 0 }
  change fun m => m.insert_head .comp comp
  rtapi_mutex_give
  return .ok comp

theorem hal_init_comp_eq (R : Rtapi σ) (name : CStr) :
    hal_init_comp R name = (do
      let comp_id ← call (R.init (rtapi_name name))
      if comp_id < 0 then
        return -EINVAL
      else
        match ← init_insert name comp_id with
        | .error e =>
            let _ ← call (R.exit comp_id)
            return e
        | .ok comp =>
            change fun m => m.setComp comp { m.comp comp with type := .realtime, pid := 0 }
            modify fun s => { s with ref_cnt := s.ref_cnt + 1 }
            return comp_id) := by
  unfold hal_init_comp init_insert
  refine bind_congr fun comp_id => ?_
  by_cases hid : comp_id < 0
  · rw [if_pos hid, if_pos hid]
  rw [if_neg hid, if_neg hid]
  simp only [bind_assoc]
  refine bind_congr fun _ => bind_congr fun dup => ?_
  by_cases hdup : dup ≠ 0
  · simp only [if_pos hdup, bind_assoc, pure_bind]
  simp only [if_neg hdup, bind_assoc]
  refine bind_congr fun comp => ?_
  by_cases hc : comp = 0
  · simp only [if_pos hc, bind_assoc, pure_bind]
  · simp only [if_neg hc, bind_assoc, pure_bind]

/-- A component is listed, or an error is returned. -/
theorem init_insert_spec {s : State σ} {L : Lists} (h : Inv s L) {name : CStr} {id : Int}
    (hn : ¬ name.length > HAL_NAME_LEN) (hid : ¬ id < 0) {spec : Int × List Event}
    (hspec : spec = (view s.shm L).init s.hal_shmem_base (s.shm.arena.alloc .comp).1
      (s.shm.comp (s.shm.arena.alloc .comp).1) id name) :
    Returns (init_insert name id) s fun made s' =>
      (∃ L', Moved s L spec.2 s' L') ∧ Still s s' ∧
      match made with
      | .error e => spec = (e, [])
      | .ok x =>
          ∃ c, s'.shm.comp x = c ∧ c.type = .realtime ∧ c.pid = 0 ∧ spec = (id, [.addComp x c]) := by
  unfold init_insert Returns
  rw [Registry.init, if_neg hn, if_neg hid] at hspec
  have hg := h.locked
  rw [wp_bind, wp_open h.attached h.unlocked, wp_bind]
  rcases find_comp_name_cases hg.shape (rt_snprintf (HAL_NAME_LEN + 1) name) with
    ⟨hf, hnone⟩ | ⟨x, hx, hx0, hxn, hf⟩
  swap
  · -- the name is taken
    rw [if_pos ⟨(x, s.shm.comp x), mem_tab.mpr ⟨hx, rfl⟩, hxn⟩] at hspec
    subst hspec
    rw [wp_walk_opened hf, if_pos hx0, wp_bind, wp_close rfl]
    exact ⟨⟨L, .closed h hg h.idle rfl rfl rfl⟩, ⟨⟨.refl _, rfl, rfl⟩, rfl, rfl⟩, rfl⟩
  rw [if_neg fun ⟨p, hp, e⟩ => hnone p hp e] at hspec
  rw [wp_walk_opened hf, if_neg (by decide), wp_bind, wp_take_opened]
  rcases alloc_comp_cases hg.shape with ⟨hx, ha⟩ | ⟨x, a, hx, h0, hgr, hs, ha⟩
  · have hx' : (s.shm.arena.alloc .comp).1 = 0 := hx
    rw [if_pos hx'] at hspec
    subst hspec
    rw [ha, if_pos rfl, wp_bind, wp_close rfl]
    exact ⟨⟨L, .closed h hg h.idle rfl rfl rfl⟩, ⟨⟨.refl _, rfl, rfl⟩, rfl, rfl⟩, rfl⟩
  have hx' : (s.shm.arena.alloc .comp).1 = x := hx
  rw [hx', if_neg h0] at hspec
  subst hspec
  rw [ha, if_neg h0, wp_bind, wp_get, wp_bind]
  set c : Comp := { s.shm.comp x with
    comp_id := id, mem_id := 0, type := .realtime, ready := 0, pid := 0
    shmem_base := s.hal_shmem_base, name := [], insmod_args := 0 } with hc
  obtain ⟨a', L', hins, hgr', hg', hi', hv'⟩ := insert_comp (c := c) hg h.idle hs
  refine wp_change_to { s.shm with
    mutex := true, arena := a, comp := Function.update s.shm.comp x c } ?_ ?_
  · simp [Segment.setComp, opened, hc]
  rw [wp_bind]
  refine wp_change_to _ hins ?_
  rw [wp_bind, wp_close rfl]
  exact ⟨⟨L', .closed h hg' hi' hv' rfl rfl⟩, ⟨⟨hgr.trans hgr', rfl, rfl⟩, rfl, rfl⟩,
    c, Function.update_self .., rfl, rfl, rfl⟩

theorem hal_init_comp_spec (R : Rtapi σ) {s : State σ} {L : Lists} (h : Inv s L) {name : CStr}
    (hn : ¬ name.length > HAL_NAME_LEN) {spec : Int × List Event}
    (hspec : spec = (view s.shm L).init s.hal_shmem_base (s.shm.arena.alloc .comp).1
      (s.shm.comp (s.shm.arena.alloc .comp).1) (R.init (rtapi_name name) s.rt).1 name) :
    Returns (hal_init_comp R name) s fun r s' =>
      r = spec.1 ∧ (∃ L', Moved s L spec.2 s' L') ∧ Quiet s s' ∧
      s'.rt = if spec.2 = [] ∧ ¬ (R.init (rtapi_name name) s.rt).1 < 0 then
          (R.exit (R.init (rtapi_name name) s.rt).1 (R.init (rtapi_name name) s.rt).2).2
        else (R.init (rtapi_name name) s.rt).2 := by
  rw [hal_init_comp_eq]
  unfold Returns
  rw [wp_bind, wp_call]
  set id := (R.init (rtapi_name name) s.rt).1 with hid
  set rt := (R.init (rtapi_name name) s.rt).2 with hrt
  refine .ite (fun hneg : id < 0 => ?_) fun hneg : ¬ id < 0 => ?_
  · rw [Registry.init, if_neg hn, if_pos hneg] at hspec
    subst hspec
    exact ⟨rfl, ⟨L, (Moved.refl h).outside _ _ _⟩, ⟨.refl _, rfl, rfl⟩,
      (if_neg fun h => h.2 hneg).symm⟩
  have h₁ : Inv { s with rt := rt } L := ((Moved.refl h).outside rt s.ref_cnt s.strikes).inv
  rw [wp_bind]
  refine Returns.mono (init_insert_spec h₁ hn hneg hspec) fun made s₁ ⟨⟨L', hm⟩, hstill, hmade⟩ => ?_
  have hm' : Moved s L spec.2 s₁ L' := ⟨hm.inv, hm.events, hm.base, hm.module, hm.lock, hm.state⟩
  have hq : Quiet s s₁ := ⟨hstill.grown, hstill.strikes, hstill.calls⟩
  cases made with
  | error e =>
      obtain rfl : spec = (e, []) := hmade
      rw [wp_bind, wp_call, hstill.rt]
      exact ⟨rfl, ⟨L', hm'.outside _ s₁.ref_cnt s₁.strikes⟩, ⟨hq.grown, hq.strikes, hq.calls⟩,
        (if_pos ⟨rfl, hneg⟩).symm⟩
  | ok x =>
      obtain ⟨c, hc, htype, hpid, rfl⟩ := hmade
      -- what is written again is there already
      have hsame : s₁.shm.setComp x { s₁.shm.comp x with type := .realtime, pid := 0 } = s₁.shm := by
        rw [hc, ← htype, ← hpid, Segment.setComp, ← hc, Function.update_eq_self]
      rw [wp_bind, wp_change, hsame]
      exact ⟨rfl, ⟨L', hm'.outside s₁.rt (s₁.ref_cnt + 1) s₁.strikes⟩,
        ⟨hq.grown, hq.strikes, hq.calls⟩, hstill.rt.trans (if_neg fun h => absurd h.1 (List.cons_ne_nil _ _)).symm⟩

/-- What `hal_init` comes to in the state `s`. -/
def inits (R : Rtapi σ) (s : State σ) (L : Lists) (name : CStr) : Int × List Event :=
  (view s.shm L).init s.hal_shmem_base (s.shm.arena.alloc .comp).1
    (s.shm.comp (s.shm.arena.alloc .comp).1) (R.init (rtapi_name name) s.rt).1 name

/-- RTAPI after a `hal_init` that did `evs`: an id that is not used is given back. -/
def init_rt (R : Rtapi σ) (name : CStr) (evs : List Event) (rt : σ) : σ :=
  let id := R.init (rtapi_name name) rt
  if name.length > HAL_NAME_LEN then rt
  else if evs = [] ∧ ¬ id.1 < 0 then (R.exit id.1 id.2).2
  else id.2

/-- **`hal_init`.**  It is the abstract operation with the id that RTAPI gives. -/
theorem hal_init_spec (R : Rtapi σ) {s : State σ} {L : Lists} (h : Inv s L) (name : CStr) :
    Returns (hal_init R (some name)) s fun r s' =>
      r = (inits R s L name).1 ∧ (∃ L', Moved s L (inits R s L name).2 s' L') ∧ Quiet s s' ∧
      s'.rt = init_rt R name (inits R s L name).2 s.rt := by
  unfold hal_init
  refine .ite (fun hn => ?_) fun hn => ?_
  · have hspec : inits R s L name = (-EINVAL, []) := if_pos hn
    rw [hspec, init_rt, if_pos hn]
    exact ⟨rfl, ⟨L, .refl h⟩, .refl s, rfl⟩
  · simp only [returns_bind, returns_get]
    rw [if_neg h.mem_id]
    refine (hal_init_comp_spec R h hn rfl).mono fun r s' hpost => ?_
    obtain ⟨h₁, h₂, h₃, h₄⟩ := hpost
    exact ⟨h₁, h₂, h₃, by rw [init_rt, if_neg hn]; exact h₄⟩

theorem hal_init_none (R : Rtapi σ) (s : State σ) {Q : Int → State σ → Prop} :
    Returns (hal_init R none) s Q ↔ Q (-EINVAL) s := Iff.rfl

/-! ### Changing a component -/

/-- A component of the list gets the record `c`. -/
theorem Good.setComp {m : Segment} {L : Lists} (h : Good m L) (x : Nat) (c : Comp) :
    Good (m.setComp x c) L ∧ view (m.setComp x c) L = (view m L).apply (.setComp x c) := by
  have hv : view (m.setComp x c) L = (view m L).apply (.setComp x c) := by
    unfold view Registry.apply
    congr 1
    simp only [tab, List.map_map]
    refine List.map_congr_left fun y _ => ?_
    by_cases hy : y = x
    · subst hy; simp [Segment.setComp]
    · simp [Segment.setComp, hy]
  exact ⟨⟨h.shape, hv ▸ h.sound.setComp, h.plain⟩, hv⟩

/-- The component with an id, on the way into an operation. -/
theorem find_opened {s : State σ} {L : Lists} (h : Inv s L) (comp_id : Int) :
    (({ s.shm with mutex := true } : Segment).halpr_find_comp_by_id comp_id = some 0 ∧
        (view s.shm L).findComp comp_id = none) ∨
      ∃ x ∈ L.act .comp, x ≠ 0 ∧
        ({ s.shm with mutex := true } : Segment).halpr_find_comp_by_id comp_id = some x ∧
        (view s.shm L).findComp comp_id = some (x, s.shm.comp x) := by
  rcases find_comp_cases h.locked.shape comp_id with h | ⟨x, hx, hx0, hf, hv, -⟩
  · exact .inl h
  · exact .inr ⟨x, hx, hx0, hf, hv⟩

section
variable {s : State σ} {L : Lists} (h : Inv s L) (comp_id : Int)
include h

/-- The end of an operation that changed the component `x` to `c`. -/
theorem setComp_done {x : Nat} {c : Comp} {spec : Int × List Event}
    (hs : spec = (0, [.setComp x c])) :
    Refines s L spec 0 (closed s (({ s.shm with mutex := true } : Segment).setComp x c)) := by
  obtain ⟨hg, hv⟩ := h.locked.setComp x c
  exact .done h hs hg h.idle hv rfl rfl (.of_eq rfl rfl)

theorem hal_set_constructor_refines (make : Addr) :
    Returns (hal_set_constructor comp_id make) s
      (Refines s L ((view s.shm L).set comp_id fun c => some { c with make := make })) := by
  unfold hal_set_constructor Returns Registry.set
  rw [wp_bind, wp_open h.attached h.unlocked, wp_bind]
  rcases find_opened h comp_id with ⟨hf, hv⟩ | ⟨x, hx, hx0, hf, hv⟩
  · rw [wp_walk_opened hf, if_pos rfl, wp_bind, wp_close rfl, hv]
    exact .refused h rfl
  · rw [wp_walk_opened hf, if_neg hx0, wp_bind, wp_change_opened, wp_bind, wp_close rfl, hv]
    exact setComp_done h rfl

theorem hal_set_unready_refines :
    Returns (hal_set_unready comp_id) s
      (Refines s L ((view s.shm L).set comp_id fun c => some { c with ready := 0 })) := by
  unfold hal_set_unready Returns Registry.set
  rw [wp_bind, wp_open h.attached h.unlocked, wp_bind]
  rcases find_opened h comp_id with ⟨hf, hv⟩ | ⟨x, hx, hx0, hf, hv⟩
  · rw [wp_walk_opened hf, if_neg (by decide), wp_bind, wp_close rfl, hv]
    exact .refused h rfl
  · rw [wp_walk_opened hf, if_pos hx0, wp_bind, wp_change_opened, wp_bind, wp_close rfl, hv]
    exact setComp_done h rfl

theorem hal_ready_refines :
    Returns (hal_ready comp_id) s (Refines s L ((view s.shm L).set comp_id fun c =>
      if c.ready > 0 then none else some { c with ready := 1 })) := by
  unfold hal_ready Returns Registry.set
  rw [wp_bind, wp_open h.attached h.unlocked, wp_bind]
  rcases find_opened h comp_id with ⟨hf, hv⟩ | ⟨x, hx, hx0, hf, hv⟩
  · rw [wp_walk_opened hf, if_pos rfl, wp_bind, wp_close rfl, hv]
    exact .refused h rfl
  · rw [wp_walk_opened hf, if_neg hx0, wp_bind, wp_look_opened, hv]
    refine .ite (fun hr => ?_) fun hr => ?_
    · rw [wp_bind, wp_close rfl]
      exact .refused h (by simp only; rw [if_pos hr]; rfl)
    · rw [wp_bind, wp_change_opened, wp_bind, wp_close rfl]
      exact setComp_done h (by simp only; rw [if_neg hr]; rfl)

theorem hal_unready_refines :
    Returns (hal_unready comp_id) s (Refines s L ((view s.shm L).set comp_id fun c =>
      if c.ready < 1 then none else some { c with ready := 0 })) := by
  unfold hal_unready Returns Registry.set
  rw [wp_bind, wp_open h.attached h.unlocked, wp_bind]
  rcases find_opened h comp_id with ⟨hf, hv⟩ | ⟨x, hx, hx0, hf, hv⟩
  · rw [wp_walk_opened hf, if_pos rfl, wp_bind, wp_close rfl, hv]
    exact .refused h rfl
  · rw [wp_walk_opened hf, if_neg hx0, wp_bind, wp_look_opened, hv]
    refine .ite (fun hr => ?_) fun hr => ?_
    · rw [wp_bind, wp_close rfl]
      exact .refused h (by simp only; rw [if_pos hr]; rfl)
    · rw [wp_bind, wp_change_opened, wp_bind, wp_close rfl]
      exact setComp_done h (by simp only; rw [if_neg hr]; rfl)

/-! ### Asking, and memory -/

theorem hal_comp_name_spec :
    Returns (hal_comp_name comp_id) s fun r s' =>
      r = ((view s.shm L).findComp comp_id).map (fun p => p.2.name) ∧
      s' = closed s { s.shm with mutex := true } := by
  unfold hal_comp_name Returns
  rw [wp_bind, wp_open h.attached h.unlocked, wp_bind]
  rcases find_opened h comp_id with ⟨hf, hv⟩ | ⟨x, hx, hx0, hf, hv⟩
  · rw [wp_walk_opened hf, wp_bind, wp_look_opened, wp_bind, wp_close rfl, hv]
    exact ⟨by simp, rfl⟩
  · rw [wp_walk_opened hf, wp_bind, wp_look_opened, wp_bind, wp_close rfl, hv]
    exact ⟨by simp [hx0], rfl⟩

end

theorem count_eq {m : Segment} {k : Kind} {xs : List Nat} {hd fuel : Nat}
    (h : Chain (m.arena.pool k).next_ptr hd xs) (hfuel : xs.length < fuel) :
    m.count k fuel hd = some xs.length := by
  induction xs generalizing hd fuel with
  | nil =>
      obtain ⟨n, rfl⟩ : ∃ n, fuel = n + 1 := ⟨fuel - 1, by simp at hfuel; omega⟩
      have h0 : hd = 0 := h
      simp [Segment.count, h0]
  | cons x xs ih =>
      obtain ⟨n, rfl⟩ : ∃ n, fuel = n + 1 := ⟨fuel - 1, by simp at hfuel; omega⟩
      obtain ⟨rfl, h0, hc⟩ := h
      simp [Segment.count, h0, ih hc (by simp at hfuel; omega)]

/-- Counting reads the links only. -/
theorem count_arena {m m' : Segment} (h : m'.arena = m.arena) {k : Kind} {n x : Nat} :
    m'.count k n x = m.count k n x := by
  induction n generalizing x with
  | zero => rfl
  | succ n ih =>
      unfold Segment.count
      rw [h, ih]

theorem count_list_arena {m m' : Segment} (h : m'.arena = m.arena) (k : Kind) :
    m'.count_list k = m.count_list k := by
  unfold Segment.count_list
  rw [h, count_arena h]

/-- No structures are counted on an empty list only. -/
theorem count_list_zero {m : Segment} {k : Kind} (h : m.count_list k = some 0) :
    (m.arena.pool k).list_ptr = 0 := by
  unfold Segment.count_list FUEL Segment.count at h
  split_ifs at h with h₀
  · exact h₀
  · simp at h

/-- A list has as many structures as the registry has entries of the kind. -/
theorem count_list_eq {m : Segment} {L : Lists} {k : Kind} (h : Shape m.arena L) (hk : k ≠ .entry) :
    m.count_list k = some (L.act k).length :=
  count_eq (h.rep k).used (h.short hk)

theorem hal_get_stats_spec {s : State σ} {L : Lists} (h : Inv s L) (stats : Bool) :
    Returns (hal_get_stats stats) s fun r s' =>
      (stats = false ∧ r = (-EINVAL, none) ∧ s' = s) ∨
      (stats = true ∧ s' = closed s { s.shm with mutex := true } ∧ r = (0, some
        { state := s.shm.state, init_pid := s.shm.init_pid, error_code := s.shm.error_code
          threads_running := s.shm.threads_running, shmem_avail := s.shm.arena.brk.shmem_avail
          shmem_total := HAL_SIZE, comp_count := (view s.shm L).comps.length
          pin_count := (view s.shm L).pins.length, param_count := (view s.shm L).params.length
          funct_count := (view s.shm L).functs.length
          thread_count := (view s.shm L).threads.length })) := by
  unfold hal_get_stats
  simp only [returns_bind, returns_get]
  refine .ite (fun h₀ => .inl ⟨h₀.resolve_left h.attached, rfl, rfl⟩) fun h₀ => ?_
  unfold Returns
  have hc := fun k hk => count_list_eq (k := k) h.locked.shape hk
  rw [wp_bind, wp_open h.attached h.unlocked, wp_bind, wp_walk_opened (hc _ (by decide)), wp_bind,
    wp_walk_opened (hc _ (by decide)), wp_bind, wp_walk_opened (hc _ (by decide)), wp_bind,
    wp_walk_opened (hc _ (by decide)), wp_bind, wp_walk_opened (hc _ (by decide)), wp_bind,
    wp_look_opened, wp_bind, wp_close rfl]
  refine .inr ⟨by simpa using fun e => h₀ (.inr e), rfl, ?_⟩
  simp [view, tab]

/-- The segment after a request for memory. -/
def Segment.grow (m : Segment) (size : Int) : Segment :=
  m.onArena fun a => { a with brk := (shmalloc_up a.brk size).2 }

/-- With HAL up and the mutex free, `hal_malloc` is the request. -/
theorem hal_malloc_returns {s : State σ} (h : s.hal_data ≠ 0) (hm : s.shm.mutex = false)
    (size : Int) :
    Returns (hal_malloc size) s fun r s' =>
      r = (shmalloc_up s.shm.arena.brk size).1 ∧
      s' = closed s (({ s.shm with mutex := true } : Segment).grow size) := by
  unfold hal_malloc
  simp only [returns_bind, returns_get]
  refine .ite (fun h₀ => absurd h₀ h) fun h₀ => ?_
  unfold Returns
  rw [wp_bind, wp_open h hm, wp_bind, wp_take_opened, wp_bind, wp_close rfl]
  exact ⟨rfl, rfl⟩

theorem hal_malloc_spec {s : State σ} {L : Lists} (h : Inv s L) (size : Int) :
    Returns (hal_malloc size) s fun r s' =>
      r = (shmalloc_up s.shm.arena.brk size).1 ∧
      s' = closed s (({ s.shm with mutex := true } : Segment).grow size) :=
  hal_malloc_returns h.attached h.unlocked size

/-- A request that leaves the two ends in order registers nothing. -/
theorem Moved.grow {s : State σ} {L : Lists} (h : Inv s L) {size : Int}
    (hspan : (shmalloc_up s.shm.arena.brk size).2.Span) :
    Moved s L [] (Hal.closed s (({ s.shm with mutex := true } : Segment).grow size)) L := by
  have hs := h.good.shape
  have hb : Blocks { s.shm.arena with brk := (shmalloc_up s.shm.arena.brk size).2 } :=
    { span := hspan
      nodup := hs.mem.nodup
      inside := fun k x hx => by rw [shmalloc_up_top]; exact hs.mem.inside k x hx
      apart := hs.mem.apart }
  exact .closed h ⟨⟨hb, hs.rep, hs.whole, hs.rings, hs.wheel⟩, h.good.sound, h.good.plain⟩ h.idle rfl
    rfl rfl

end RTS.Hal

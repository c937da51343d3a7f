import RealTimeSystem.Hal.Abstract
import RealTimeSystem.Hal.Entries

/-!
# HAL — the schedules of the threads

The ring of a thread, read from its root, is the thread's schedule.  `insertion_point_eq` finds
where `hal_add_funct_to_thread` inserts, from either end; `find_entry_eq` finds what
`hal_del_funct_from_thread` removes.

**`hal_add_funct_spec`, `hal_del_funct_refines`**: the two operations are those of `Abstract.lean`.
**`thread_task_cycle_calls`**: a cycle of a thread calls its schedule, in order.
-/

namespace RTS.Hal

open RTS.Support

variable {σ : Type} {l : Links} {r : Nat} {xs ys : List Nat}

/-! ### Finding the place -/

/-- Forward from the entry behind `xs`. -/
theorem advance_eq (h : Ring l r (xs ++ ys)) (hnd : (r :: (xs ++ ys)).Nodup) {p : Int} {fuel : Nat}
    (hfuel : ys.length < fuel) (hp : xs.length + 1 ≤ p) :
    advance l.next r p fuel xs.length (xs.getLastD r) = some
      (if p ≤ (xs ++ ys).length + 1 then some (((xs ++ ys).take (p - 1).toNat).getLastD r)
        else none) := by
  induction ys generalizing xs fuel with
  | nil =>
      obtain ⟨n, rfl⟩ : ∃ n, fuel = n + 1 := ⟨fuel - 1, by simp at hfuel; omega⟩
      have hnext : l.next (xs.getLastD r) = r := h.next_at
      by_cases hlt : (xs.length : Int) + 1 < p
      · rw [advance, if_pos hlt, hnext]
        simp only [if_true]
        rw [if_neg (by simp; omega)]
      · have hp' : p = xs.length + 1 := by omega
        rw [advance, if_neg hlt, if_pos (by simp; omega), hp']
        simp
  | cons y ys ih =>
      obtain ⟨n, rfl⟩ : ∃ n, fuel = n + 1 := ⟨fuel - 1, by simp at hfuel; omega⟩
      have hnext : l.next (xs.getLastD r) = y := h.next_at
      have hyr : y ≠ r := fun e => (List.nodup_cons.mp hnd).1 (by simp [e])
      by_cases hlt : (xs.length : Int) + 1 < p
      · rw [advance, if_pos hlt, hnext, if_neg hyr]
        have h' : Ring l r ((xs ++ [y]) ++ ys) := by simpa using h
        have hfuel' : ys.length < n := by simp at hfuel; omega
        have := ih h' (by simpa using hnd) hfuel' (by simp; omega)
        simpa using this
      · have hp' : p = xs.length + 1 := by omega
        rw [advance, if_neg hlt, if_pos (by simp; omega), hp']
        simp

/-- Backward from the entry before `xs`, which are in backward order. -/
theorem retreat_eq (h : Ring ⟨l.prev, l.next⟩ r (xs ++ ys)) (hnd : (r :: (xs ++ ys)).Nodup) {p : Int}
    {fuel : Nat} (hfuel : ys.length < fuel) (hp : xs.length + 1 ≤ -p) :
    retreat l.prev r p fuel (-xs.length) (xs.getLastD r) = some
      (if -p ≤ (xs ++ ys).length + 1 then some (((xs ++ ys).drop (-p - 1).toNat).headD r)
        else none) := by
  induction ys generalizing xs fuel with
  | nil =>
      obtain ⟨n, rfl⟩ : ∃ n, fuel = n + 1 := ⟨fuel - 1, by simp at hfuel; omega⟩
      have hnext : l.prev (xs.getLastD r) = r := h.next_at
      by_cases hlt : -(xs.length : Int) - 1 > p
      · rw [retreat, if_pos hlt, hnext]
        simp only [if_true]
        rw [if_neg (by simp; omega)]
      · have hp' : (-p - 1).toNat = xs.length := by omega
        rw [retreat, if_neg hlt, if_pos (by simp; omega), hp', hnext]
        simp
  | cons y ys ih =>
      obtain ⟨n, rfl⟩ : ∃ n, fuel = n + 1 := ⟨fuel - 1, by simp at hfuel; omega⟩
      have hnext : l.prev (xs.getLastD r) = y := h.next_at
      have hyr : y ≠ r := fun e => (List.nodup_cons.mp hnd).1 (by simp [e])
      by_cases hlt : -(xs.length : Int) - 1 > p
      · rw [retreat, if_pos hlt, hnext, if_neg hyr]
        have h' : Ring ⟨l.prev, l.next⟩ r ((xs ++ [y]) ++ ys) := by simpa using h
        have hfuel' : ys.length < n := by simp at hfuel; omega
        have := ih h' (by simpa using hnd) hfuel' (by simp; omega)
        have hlen : (-(↑(xs ++ [y]).length : Int)) = -(xs.length : Int) - 1 := by simp; omega
        rw [hlen] at this
        simpa using this
      · have hp' : (-p - 1).toNat = xs.length := by omega
        rw [retreat, if_neg hlt, if_pos (by simp; omega), hp', hnext]
        simp

/-- **The insertion point.**  It is behind the entries that come before the position. -/
theorem insertion_point_eq {m : Segment} {L : Lists} (h : Shape m.arena L) (hr : r ∈ L.roots)
    {p : Int} (hp : p ≠ 0) :
    insertion_point m r p = some ((Registry.position (L.ring r).length p).map fun i =>
      ((L.ring r).take i).getLastD r) := by
  have hring := h.rings.closed r hr
  have hnd := h.rings.nodup r hr
  have hshort := h.ring_short hr
  unfold insertion_point Registry.position
  by_cases hpos : p > 0
  · have := advance_eq (p := p) (show Ring _ r ([] ++ L.ring r) from hring) hnd hshort
      (by simp; omega)
    rw [if_pos hpos]
    refine this.trans ?_
    by_cases hle : p ≤ (L.ring r).length + 1
    · rw [List.nil_append, if_pos hle, if_pos ⟨hpos, hle⟩]
      rfl
    · rw [List.nil_append, if_neg hle, if_neg fun h => hle h.2, if_neg fun h => by omega]
      rfl
  · have hneg : p < 0 := by omega
    have hnd' : (r :: (L.ring r).reverse).Nodup := by
      rw [List.nodup_cons] at hnd ⊢
      exact ⟨by simpa using hnd.1, List.nodup_reverse.mpr hnd.2⟩
    have hshort' : (L.ring r).reverse.length < FUEL := by simpa using hshort
    have := retreat_eq (p := p) (show Ring _ r ([] ++ (L.ring r).reverse) from hring.reverse) hnd'
      hshort' (by simp; omega)
    rw [if_neg hpos]
    refine this.trans ?_
    by_cases hle : -p ≤ (L.ring r).length + 1
    · rw [List.nil_append, List.length_reverse, if_pos hle, if_neg (fun h => hpos h.1),
        if_pos ⟨hneg, hle⟩]
      have hidx : ((L.ring r).length + 1 + p).toNat = (L.ring r).length - (-p - 1).toNat := by omega
      rw [List.drop_reverse, hidx]
      simp [List.head?_reverse, List.headD_eq_head?_getD, List.getLastD_eq_getLast?]
    · rw [List.nil_append, List.length_reverse, if_neg hle, if_neg (fun h => hpos h.1),
        if_neg fun h => hle h.2]
      rfl

/-- The first entry of a ring that calls `f`. -/
theorem find_entry_eq {m : Segment} {L : Lists} (h : Shape m.arena L) (hr : r ∈ L.roots) (f : Nat)
    {fuel : Nat} (hs : L.ring r = xs ++ ys) (hfuel : ys.length < fuel) :
    find_entry m r f fuel (ys.headD r) = some (ys.find? fun e => (m.entry e).funct_ptr = f) := by
  induction ys generalizing xs fuel with
  | nil =>
      obtain ⟨n, rfl⟩ : ∃ n, fuel = n + 1 := ⟨fuel - 1, by simp at hfuel; omega⟩
      simp [find_entry]
  | cons y ys ih =>
      obtain ⟨n, rfl⟩ : ∃ n, fuel = n + 1 := ⟨fuel - 1, by simp at hfuel; omega⟩
      have hnd := h.rings.nodup r hr
      have hyr : y ≠ r := fun e => (List.nodup_cons.mp hnd).1 (by simp [hs, e])
      have hnext : m.arena.links.next y = ys.headD r := h.next_after hr hs
      have hs' : L.ring r = (xs ++ [y]) ++ ys := by simp [hs]
      rw [List.headD_cons, find_entry, if_neg hyr]
      by_cases hf : (m.entry y).funct_ptr = f
      · simp [hf]
      · rw [if_neg hf, hnext, ih hs' (by simp at hfuel; omega)]
        simp [hf]

/-! ### Adding a function -/

/-- A table of functions after a change of the users of `f`. -/
theorem tab_users {F : Nat → Funct} {f : Nat} {d : Int} :
    tab (Function.update F f { F f with users := (F f).users + d }) xs = (tab F xs).map fun p =>
      if p.1 = f then (p.1, { p.2 with users := p.2.users + d }) else p := by
  simp only [tab, List.map_map]
  refine List.map_congr_left fun y _ => ?_
  by_cases hy : y = f
  · subst hy; simp
  · simp [hy]

/-- The registry with a new entry on the ring of a thread. -/
theorem schedule_view {m : Segment} {L : Lists} {t i e f : Nat} (rec : Entry) (m' : Segment)
    (L' : Lists)
    (hm : m' = { m with
      arena := m'.arena
      funct := Function.update m.funct f { m.funct f with users := (m.funct f).users + 1 }
      entry := Function.update m.entry e rec })
    (hf : rec.funct_ptr = f) (hact : L'.act = L.act)
    (hring : L'.ring (t + THREAD_FUNCT_LIST) = (L.ring (t + THREAD_FUNCT_LIST)).take i ++
      e :: (L.ring (t + THREAD_FUNCT_LIST)).drop i)
    (hrest : ∀ t' ∈ L.act .thread, t' ≠ t →
      L'.ring (t' + THREAD_FUNCT_LIST) = L.ring (t' + THREAD_FUNCT_LIST))
    (he : ∀ t' ∈ L.act .thread, e ∉ L.ring (t' + THREAD_FUNCT_LIST)) :
    view m' L' = (view m L).apply (.schedule t i e rec) := by
  rw [hm]
  unfold view Registry.apply
  simp only [hact, hf]
  congr 1
  · exact tab_users
  · simp only [reschedule, List.map_map]
    refine List.map_congr_left fun t' ht' => ?_
    by_cases htt : t' = t
    · subst htt
      have h₁ : e ∉ (L.ring (t' + THREAD_FUNCT_LIST)).take i := fun h =>
        he t' ht' (List.mem_of_mem_take h)
      have h₂ : e ∉ (L.ring (t' + THREAD_FUNCT_LIST)).drop i := fun h =>
        he t' ht' (List.mem_of_mem_drop h)
      have htab : tab (Function.update m.entry e rec) (L'.ring (t' + THREAD_FUNCT_LIST)) =
          (tab m.entry (L.ring (t' + THREAD_FUNCT_LIST))).take i ++
            (e, rec) :: (tab m.entry (L.ring (t' + THREAD_FUNCT_LIST))).drop i := by
        have hcons : ∀ xs ys : List Nat, tab (Function.update m.entry e rec) (xs ++ e :: ys) =
            tab (Function.update m.entry e rec) xs ++
              (e, rec) :: tab (Function.update m.entry e rec) ys := fun xs ys => by simp [tab]
        rw [hring, hcons, tab_update h₁, tab_update h₂]
        simp [tab, List.map_take, List.map_drop]
      simp [slot, htab]
    · simp [slot, htt, hrest t' ht' htt, tab_update (he t' ht')]

/-- A new entry `e` for the function `f` on the ring of the thread `t`. -/
theorem Good.schedule {m : Segment} {L : Lists} {a : Arena} {t f e i : Nat} {rec : Entry}
    (hg : Good m L) (hi : Idle L) (ht : t ∈ L.act .thread) (hf : f ∈ L.act .funct)
    (ha : m.arena.alloc_entry = some (e, a))
    (hrec : rec = { funct_ptr := f, arg := (m.funct f).arg, funct := (m.funct f).funct })
    (hu : ¬ ((m.funct f).users > 0 ∧ (m.funct f).reentrant = 0)) :
    ∃ L', Good { m with
        arena := a.list_add_after e
          (((L.ring (t + THREAD_FUNCT_LIST)).take i).getLastD (t + THREAD_FUNCT_LIST))
        funct := Function.update m.funct f { m.funct f with users := (m.funct f).users + 1 }
        entry := Function.update m.entry e rec } L' ∧ Idle L' ∧
      view { m with
        arena := a.list_add_after e
          (((L.ring (t + THREAD_FUNCT_LIST)).take i).getLastD (t + THREAD_FUNCT_LIST))
        funct := Function.update m.funct f { m.funct f with users := (m.funct f).users + 1 }
        entry := Function.update m.entry e rec } L' = (view m L).apply (.schedule t i e rec) := by
  set r := t + THREAD_FUNCT_LIST with hr
  have hroot : r ∈ L.roots := Shape.thread_root (.inl ht)
  have hr0 : r ≠ FUNCT_ENTRY_FREE := hg.shape.root_ne_idle (.inl ht)
  set L₁ := (L.setRing FUNCT_ENTRY_FREE (L.ring FUNCT_ENTRY_FREE).tail).setLoose
    (e :: L.hand .entry) with hL₁
  have h₁ : Shape a L₁ := hg.shape.alloc_entry ha
  have hring₁ : ∀ q, q ≠ FUNCT_ENTRY_FREE → L₁.ring q = L.ring q := fun q hq => by
    simp [hL₁, Lists.setRing, hq]
  have hroot₁ : ∀ q ∈ L.roots, q ∈ L₁.roots := fun q hq => by
    rw [hL₁, Shape.setLoose_roots, Shape.setRing_roots]; exact hq
  have hhand : L₁.hand .entry = [e] := by simp [hL₁, Lists.setLoose, hi .entry]
  have h₂ := h₁.add_after (hroot₁ r hroot) hhand
    ((hring₁ r hr0).trans (List.take_append_drop i (L.ring r)).symm)
  -- the entry was in hand, so it was on no ring
  have he : ∀ t' ∈ L.act .thread, e ∉ L.ring (t' + THREAD_FUNCT_LIST) := fun t' ht' hm => by
    have hq := hg.shape.root_ne_idle (.inl ht')
    have hsp := h₁.rings.spare _ (hroot₁ _ (Shape.thread_root (.inl ht')))
    rw [hring₁ _ hq, hhand] at hsp
    exact hsp (List.mem_cons_of_mem _ hm) (by simp)
  have hv := schedule_view (m := m) (L := L) (i := i) (t := t) (e := e) (f := f) rec { m with
      arena := a.list_add_after e (((L.ring r).take i).getLastD r)
      funct := Function.update m.funct f { m.funct f with users := (m.funct f).users + 1 }
      entry := Function.update m.entry e rec }
    ((L₁.setRing r ((L.ring r).take i ++ e :: (L.ring r).drop i)).setLoose []) rfl
    (by rw [hrec]) rfl (by simp [Lists.setRing, hr])
    (fun t' ht' hne => by
      have hq := hg.shape.root_ne_idle (.inl ht')
      have hne' : t' + THREAD_FUNCT_LIST ≠ r := fun e => hne (Blocks.root_ne e)
      simp only [Lists.setLoose_ring, Lists.setRing, Function.update_of_ne hne']
      exact hring₁ _ hq) he
  refine ⟨_, ⟨h₂, ?_, hg.plain⟩, fun k => ?_, hv⟩
  · rw [hv]
    refine hg.sound.apply ⟨List.mem_map.mpr ⟨slot m L t, List.mem_map_of_mem ht, rfl⟩,
      (f, m.funct f), mem_tab.mpr ⟨hf, rfl⟩, by rw [hrec], by rw [hrec], by rw [hrec], fun h0 => ?_⟩
    exact Int.not_lt.mp fun hpos => hu ⟨hpos, h0⟩
  · by_cases hk : k = .entry
    · subst hk; simp [Lists.setLoose]
    · simp [Lists.setLoose, hL₁, hk, hi k]

/-- **`hal_add_funct_to_thread`.**  It is the abstract operation, unless the function could be added
but there is no entry for it: then the process crashes. -/
theorem hal_add_funct_spec {s : State σ} {L : Lists} (h : Inv s L)
    (funct_name thread_name : Option CStr) (p : Int) {spec : Int × List Event}
    (hspec : spec = (view s.shm L).add_funct s.shm.lock
      ((s.shm.arena.alloc_entry.map Prod.fst).getD 0) funct_name thread_name p) :
    Wp (hal_add_funct_to_thread funct_name thread_name p) s
      (fun r s' => (spec.1 = 0 → s.shm.arena.alloc_entry ≠ none) ∧ Refines s L spec r s')
      fun e _ => e = .segv ∧ spec.1 = 0 ∧ s.shm.arena.alloc_entry = none := by
  unfold hal_add_funct_to_thread
  simp only [wp_bind, wp_get]
  refine .ite (fun h₀ => absurd h₀ h.attached) fun _ => ?_
  rw [Registry.add_funct] at hspec
  refine .ite (fun hl => ?_) fun hl => ?_
  · rw [if_pos hl] at hspec
    exact ⟨fun h₀ => by rw [hspec] at h₀; exact absurd h₀ (by decide), .same h hspec⟩
  rw [if_neg hl] at hspec
  set m : Segment := { s.shm with mutex := true } with hm
  have hg : Good m L := h.locked
  -- a refusal with the mutex
  have refuse : spec = (-EINVAL, []) → (spec.1 = 0 → s.shm.arena.alloc_entry ≠ none) ∧
      Refines s L spec (-EINVAL) (closed s m) := fun hs =>
    ⟨fun h₀ => by rw [hs] at h₀; exact absurd h₀ (by decide), .refused h hs⟩
  rw [wp_bind, wp_open h.attached h.unlocked]
  refine .ite (fun hp => ?_) fun hp => ?_
  · rw [wp_bind, wp_close rfl]
    refine refuse (hspec.trans ?_)
    split
    · split_ifs <;> first | rfl | simp [hp, Registry.position]
    · rfl
  cases funct_name with
  | none =>
      rw [wp_bind, wp_close rfl]
      exact refuse hspec
  | some fname =>
      cases thread_name with
      | none =>
          rw [wp_bind, wp_close rfl]
          refine refuse (hspec.trans ?_)
          split
          · rename_i h₁; cases h₁
          · rfl
      | some tname =>
          rw [Option.bind_some, Option.bind_some] at hspec
          rw [wp_bind]
          rcases find_funct_cases hg.shape fname with ⟨hf, hv⟩ | ⟨f, hfm, hf0, hf, hv, -⟩
          · rw [wp_walk_opened hf, if_pos rfl, wp_bind, wp_close rfl]
            exact refuse (by rw [hspec, show (view s.shm L).findFunct fname = none from hv])
          have hvf : (view s.shm L).findFunct fname = some (f, m.funct f) := hv
          rw [wp_walk_opened hf, if_neg hf0, wp_bind, wp_look_opened]
          rw [hvf] at hspec
          refine .ite (fun hu : (m.funct f).users > 0 ∧ (m.funct f).reentrant = 0 => ?_)
            fun hu : ¬ ((m.funct f).users > 0 ∧ (m.funct f).reentrant = 0) => ?_
          · rw [wp_bind, wp_close rfl]
            refine refuse (hspec.trans ?_)
            split
            · rename_i h₁ h₂; cases h₁; rw [if_pos hu]
            · rfl
          rw [wp_bind]
          rcases find_thread_cases hg.shape tname with ⟨ht, hv⟩ | ⟨t, htm, ht0, ht, hv, -⟩
          · rw [wp_walk_opened ht, if_pos rfl, wp_bind, wp_close rfl]
            exact refuse (by rw [hspec, show (view s.shm L).findThread tname = none from hv])
          have hvt : (view s.shm L).findThread tname = some (slot m L t) := hv
          rw [wp_walk_opened ht, if_neg ht0, wp_bind, wp_look_opened]
          simp only [hvt, slot_thread, slot_off, slot_entries, tab, List.length_map] at hspec
          rw [if_neg hu] at hspec
          refine .ite (fun hfp : (m.funct f).uses_fp ≠ 0 ∧ (m.thread t).uses_fp = 0 => ?_)
            fun hfp : ¬ ((m.funct f).uses_fp ≠ 0 ∧ (m.thread t).uses_fp = 0) => ?_
          · rw [wp_bind, wp_close rfl]
            exact refuse (hspec.trans (if_pos hfp))
          rw [if_neg hfp] at hspec
          have hroot : t + THREAD_FUNCT_LIST ∈ L.roots := Shape.thread_root (.inl htm)
          rw [wp_bind, wp_walk_opened (insertion_point_eq hg.shape hroot hp)]
          rcases hi : Registry.position (L.ring (t + THREAD_FUNCT_LIST)).length p with _ | i
          · rw [hi] at hspec
            rw [Option.map_none, wp_bind, wp_close rfl]
            exact refuse hspec
          rw [hi] at hspec
          rw [Option.map_some]
          simp only [wp_bind, wp_get]
          rcases ha : m.arena.alloc_entry with _ | ⟨e, a⟩
          · -- no entry, and nothing was tested against it
            have hnone : (opened s m).shm.alloc_funct_entry_struct = none := by
              simp [opened, Segment.alloc_funct_entry_struct, ha]
            rw [hnone]
            exact ⟨rfl, by rw [hspec], rfl⟩
          have hsome : (opened s m).shm.alloc_funct_entry_struct =
              some (e, { m with arena := a }.setEntry e {}) := by
            simp [opened, Segment.alloc_funct_entry_struct, ha]
          have ha' : s.shm.arena.alloc_entry = some (e, a) := ha
          obtain ⟨L', hg', hi', hv'⟩ := hg.schedule (i := i) h.idle htm hfm ha rfl hu
          rw [hsome]
          simp only [wp_bind]
          refine wp_change_to { m with arena := a, entry := Function.update m.entry e {} } rfl ?_
          refine wp_change_to { m with
            arena := a
            entry := Function.update m.entry e
              { funct_ptr := f, arg := (m.funct f).arg, funct := (m.funct f).funct } } ?_ ?_
          · simp [Segment.setEntry]
          refine wp_change_to _ rfl (wp_change_to _ rfl ?_)
          rw [wp_close rfl]
          have hs : spec = (0, [.schedule t i e
              { funct_ptr := f, arg := (m.funct f).arg, funct := (m.funct f).funct }]) := by
            rw [hspec, ha']
            rfl
          exact ⟨fun _ => Option.some_ne_none _, .done h hs hg' hi' hv' rfl rfl
            ((Grown.alloc_entry hg.shape ha).trans (.of_eq rfl rfl))⟩

/-! ### Removing a function -/

/-- The entry `e` leaves the ring of the thread `t`. -/
theorem Good.unschedule {m : Segment} {L : Lists} {t e f : Nat} (hg : Good m L) (hi : Idle L)
    (ht : t ∈ L.act .thread) (hs : L.ring (t + THREAD_FUNCT_LIST) = xs ++ e :: ys)
    (hf : (m.entry e).funct_ptr = f) (hf0 : f ≠ 0) :
    ∃ m' L', (m.onArena fun a => a.list_remove_entry e).free_funct_entry_struct e = m' ∧ Good m' L' ∧
      Idle L' ∧ view m' L' = (view m L).apply (.unschedule t e f) ∧ Grown m.arena m'.arena ∧
      m'.mutex = m.mutex ∧ m'.lock = m.lock ∧ m'.state = m.state := by
  subst hf
  set r := t + THREAD_FUNCT_LIST with hr
  have hroot : r ∈ L.roots := Shape.thread_root (.inl ht)
  have hr0 : r ≠ FUNCT_ENTRY_FREE := hg.shape.root_ne_idle (.inl ht)
  obtain ⟨a, e₁, hgr, h₁⟩ := free_entry hg.shape hroot hr0 hs hf0
  have hnd := hg.shape.rings.nodup r hroot
  rw [hs] at hnd
  have hexy : e ∉ xs ++ ys := (List.nodup_cons.mp
    (List.perm_middle.nodup_iff.mp (List.nodup_cons.mp hnd).2)).1
  have hout : ∀ t' ∈ L.act .thread, t' ≠ t → e ∉ L.ring (t' + THREAD_FUNCT_LIST) := by
    intro t' ht' hne hm
    have hap := hg.shape.rings.apart _ (Shape.thread_root (.inl ht')) _ hroot fun e =>
      hne (Blocks.root_ne e)
    exact hap (List.mem_cons_of_mem _ hm) (by simp [hs])
  have hv : view { m with
        arena := a, funct := discharge [(e, m.entry e)] m.funct, entry := cleared [e] m.entry }
      (L.reclaim r (xs ++ ys) [e]) =
      (view m L).apply (.unschedule t e (m.entry e).funct_ptr) := by
    have hkeep : ∀ zs, e ∉ zs → tab (cleared [e] m.entry) zs = tab m.entry zs := fun zs hz =>
      tab_congr fun z hz' => cleared_of_notMem (by simpa using ne_of_mem_of_not_mem hz' hz)
    unfold view Registry.apply
    simp only [Lists.reclaim_act]
    congr 1
    · simp only [tab, List.map_map]
      refine List.map_congr_left fun y _ => ?_
      by_cases hy : y = (m.entry e).funct_ptr
      · simp [discharge, calls_cons, hy]
      · simp [discharge, calls_cons, hy, Ne.symm hy]
    · simp only [reschedule, List.map_map]
      refine List.map_congr_left fun t' ht' => ?_
      by_cases htt : t' = t
      · subst htt
        have hkeep : ∀ z ∈ xs ++ ys, cleared [e] m.entry z = m.entry z := fun z hz =>
          cleared_of_notMem (by simpa using ne_of_mem_of_not_mem hz hexy)
        have hd := tab_drop hexy hkeep
        simp [slot, ← hr, Lists.reclaim_self hr0, hd, hs]
      · have hne : t' + THREAD_FUNCT_LIST ≠ r := fun e => htt (Blocks.root_ne e)
        simp [slot, htt, Lists.reclaim_other hne (hg.shape.root_ne_idle (.inl ht')),
          hkeep _ (hout t' ht' htt)]
  refine ⟨_, _, e₁, ⟨h₁, ?_, hg.plain⟩, hi, hv, hgr, rfl, rfl, rfl⟩
  rw [hv]
  refine hg.sound.apply ⟨slot m L t, List.mem_map_of_mem ht, rfl, tab m.entry xs, tab m.entry ys,
    m.entry e, ?_, ?_, rfl⟩
  · rw [slot_entries, ← hr, hs]
    simp [tab]
  · simpa using hexy

/-- **`hal_del_funct_from_thread`.**  It is the abstract operation. -/
theorem hal_del_funct_refines {s : State σ} {L : Lists} (h : Inv s L)
    (funct_name thread_name : Option CStr) :
    Returns (hal_del_funct_from_thread funct_name thread_name) s
      (Refines s L ((view s.shm L).del_funct s.shm.lock funct_name thread_name)) := by
  unfold hal_del_funct_from_thread
  simp only [returns_bind, returns_get]
  refine .ite (fun h₀ => absurd h₀ h.attached) fun _ => ?_
  rw [Registry.del_funct]
  refine .ite (fun hl => .same h (if_pos hl)) fun hl => ?_
  rw [if_neg hl]
  unfold Returns
  set m : Segment := { s.shm with mutex := true } with hm
  have hg : Good m L := h.locked
  rw [wp_bind, wp_open h.attached h.unlocked]
  cases funct_name with
  | none =>
      rw [wp_bind, wp_close rfl]
      exact .refused h rfl
  | some fname =>
      cases thread_name with
      | none =>
          rw [wp_bind, wp_close rfl]
          refine .refused h ?_
          split
          · rename_i h₁; cases h₁
          · rfl
      | some tname =>
          rw [Option.bind_some, Option.bind_some, wp_bind]
          rcases find_funct_cases hg.shape fname with ⟨hf, hv⟩ | ⟨f, hfm, hf0, hf, hv, -⟩
          · rw [wp_walk_opened hf, if_pos rfl, wp_bind, wp_close rfl]
            exact .refused h (by rw [show (view s.shm L).findFunct fname = none from hv])
          have hvf : (view s.shm L).findFunct fname = some (f, m.funct f) := hv
          rw [wp_walk_opened hf, if_neg hf0, wp_bind, wp_look_opened, hvf]
          refine .ite (fun hu : (m.funct f).users = 0 => ?_) fun hu => ?_
          · -- no users: the thread has no entry for it either
            rw [wp_bind, wp_close rfl]
            refine .refused h ?_
            rcases hvt : (view s.shm L).findThread tname with _ | t
            · rfl
            have hcount := h.good.sound.counted (f, m.funct f) (mem_tab.mpr ⟨hfm, rfl⟩)
            have hnone : t.entries.find? (fun e => e.2.funct_ptr = f) = none := by
              refine List.find?_eq_none.mpr fun e he => ?_
              have := calls_eq_zero.mp (hcount.symm.trans hu) e
                (List.mem_flatMap.mpr ⟨t, List.mem_of_find?_eq_some hvt, he⟩)
              simpa using this
            simp only [hnone]
          rw [wp_bind]
          rcases find_thread_cases hg.shape tname with ⟨ht, hv⟩ | ⟨t, htm, ht0, ht, hv, -⟩
          · rw [wp_walk_opened ht, if_pos rfl, wp_bind, wp_close rfl]
            exact .refused h (by rw [show (view s.shm L).findThread tname = none from hv])
          have hvt : (view s.shm L).findThread tname = some (slot m L t) := hv
          have hroot : t + THREAD_FUNCT_LIST ∈ L.roots := Shape.thread_root (.inl htm)
          have hfind := find_entry_eq hg.shape hroot f (List.nil_append _).symm
            (hg.shape.ring_short hroot)
          rw [← hg.shape.next_root hroot] at hfind
          have hspec : (slot m L t).entries.find? (fun e => e.2.funct_ptr = f) =
              ((L.ring (t + THREAD_FUNCT_LIST)).find? fun e => (m.entry e).funct_ptr = f).map
                fun e => (e, m.entry e) := by
            simp [tab, List.find?_map, Function.comp_def]
          rw [wp_walk_opened ht, if_neg ht0, wp_bind, wp_walk_opened hfind, hvt]
          simp only [hspec]
          rcases he : (L.ring (t + THREAD_FUNCT_LIST)).find? fun e => (m.entry e).funct_ptr = f with
            _ | e
          · rw [wp_bind, wp_close rfl]
            exact .refused h rfl
          obtain ⟨hcall, xs, ys, hs, -⟩ := List.find?_eq_some_iff_append.mp he
          obtain ⟨m', L', e₁, hg', hi', hv', hgr, hmx, hl', hst⟩ :=
            hg.unschedule h.idle htm hs (by simpa using hcall) hf0
          simp only [wp_bind]
          refine wp_change_to _ rfl (wp_change_to _ e₁ ?_)
          rw [wp_close hmx]
          exact .done h rfl hg' hi' hv' hl' hst hgr

/-! ### The cycle of a thread -/

/-- `s` after the calls `cs`, newest first: besides them only values in memory and RTAPI
changed. -/
def State.ran (s : State σ) (cs : List Called) (data : Addr → Int) (rt : σ) : State σ :=
  { s with shm := { s.shm with data := data }, rt := rt, calls := cs ++ s.calls }

/-- What thread `th` calls for an entry. -/
def call_of (th : Thread) (e : Entry) : Called := ⟨e.funct, e.arg, th.period⟩

section
variable (R : Rtapi σ) (code : Addr → Addr → Int → (Addr → Int) → (Addr → Int))

/-- **The loop over the schedule** calls the functions in order, and stops at one that is null. -/
theorem run_functs_calls {s : State σ} {L : Lists} {t : Nat} (h : Shape s.shm.arena L)
    (hr : t + THREAD_FUNCT_LIST ∈ L.roots) (hs : L.ring (t + THREAD_FUNCT_LIST) = xs ++ ys)
    (hf : ∀ e ∈ ys, (s.shm.entry e).funct_ptr ≠ 0) {fuel : Nat} (hfuel : ys.length < fuel)
    (end_time : Int) :
    Wp (run_functs R code t fuel (ys.headD (t + THREAD_FUNCT_LIST)) end_time) s
      (fun _ s' => (∀ e ∈ ys, (s.shm.entry e).funct ≠ 0) ∧ ∃ data rt, s' =
        s.ran (ys.map fun e => call_of (s.shm.thread t) (s.shm.entry e)).reverse data rt)
      fun err s' => err = .segv ∧ ∃ zs z rest, ys = zs ++ z :: rest ∧ (s.shm.entry z).funct = 0 ∧
        ∃ data rt, s' =
          s.ran (zs.map fun e => call_of (s.shm.thread t) (s.shm.entry e)).reverse data rt := by
  induction ys generalizing s xs fuel end_time with
  | nil =>
      obtain ⟨n, rfl⟩ : ∃ n, fuel = n + 1 := ⟨fuel - 1, by simp at hfuel; omega⟩
      rw [List.headD_nil, run_functs]
      exact .ite (fun _ => ⟨fun _ he => absurd he List.not_mem_nil, s.shm.data, s.rt, rfl⟩)
        fun hne => absurd rfl hne
  | cons y ys ih =>
      obtain ⟨n, rfl⟩ : ∃ n, fuel = n + 1 := ⟨fuel - 1, by simp at hfuel; omega⟩
      have hnd := h.rings.nodup _ hr
      have hyr : y ≠ t + THREAD_FUNCT_LIST := fun e =>
        (List.nodup_cons.mp hnd).1 (by rw [hs, e]; simp)
      have hnext : s.shm.arena.links.next y = ys.headD (t + THREAD_FUNCT_LIST) :=
        h.next_after hr hs
      rw [List.headD_cons, run_functs]
      refine .ite (fun e => absurd e hyr) fun _ => ?_
      rw [wp_bind, wp_get, wp_bind]
      refine wp_jump_or (fun hy => ?_) fun hy =>
        ⟨rfl, [], y, ys, rfl, hy, s.shm.data, s.rt, rfl⟩
      -- the call, and whatever it and the bookkeeping write
      have hgo : ∀ data rt end_time, Wp (run_functs R code t n
          (ys.headD (t + THREAD_FUNCT_LIST)) end_time)
          (s.ran [call_of (s.shm.thread t) (s.shm.entry y)] data rt)
          (fun _ s' => (∀ e ∈ y :: ys, (s.shm.entry e).funct ≠ 0) ∧ ∃ data rt, s' =
            s.ran ((y :: ys).map fun e => call_of (s.shm.thread t) (s.shm.entry e)).reverse
              data rt)
          fun err s' => err = .segv ∧ ∃ zs z rest, y :: ys = zs ++ z :: rest ∧
            (s.shm.entry z).funct = 0 ∧ ∃ data rt, s' =
              s.ran (zs.map fun e => call_of (s.shm.thread t) (s.shm.entry e)).reverse
                data rt := fun data rt end_time => by
        have hs' : L.ring (t + THREAD_FUNCT_LIST) = (xs ++ [y]) ++ ys := by simp [hs]
        refine (ih (s := s.ran _ data rt) h hs'
          (fun e he => hf e (by simp [he])) (by simp at hfuel; omega) end_time).mono
          (fun _ s' ⟨hok, data', rt', hs'⟩ =>
            ⟨List.forall_mem_cons.mpr ⟨hy, hok⟩, data', rt', ?_⟩)
          fun err s' ⟨he, zs, z, rest, hsplit, hz, data', rt', hs'⟩ =>
            ⟨he, y :: zs, z, rest, congrArg (List.cons y) hsplit, hz, data', rt', ?_⟩
        · rw [hs']
          simp [State.ran]
        · rw [hs']
          simp [State.ran]
      simp only [wp_bind, wp_modify, wp_call]
      refine .ite (fun h0 => absurd h0 (hf y (by simp))) fun _ => ?_
      rw [wp_bind, wp_look]
      refine .ite (fun _ => ?_) fun _ => ?_
      · rw [wp_bind, wp_change, wp_bind, wp_look]
        split_ifs
        all_goals
          simp only [Segment.setData, hnext]
          exact hgo _ _ _
      · rw [wp_bind, wp_look]
        simp only [hnext]
        exact hgo _ _ _

/-- **A cycle calls the schedule.**  Each function once, in order, with its argument and the period
of the thread, up to one that is null; then the thread's run time is stored, through a pointer that
may be null. -/
theorem thread_task_cycle_calls {s : State σ} {L : Lists} {t : Nat} (h : Inv s L)
    (ht : t ∈ L.act .thread) (hrun : s.shm.threads_running > 0) {Q E : State σ → Prop}
    (hQ : (∀ e ∈ (slot s.shm L t).entries, e.2.funct ≠ 0) → ∀ data rt,
      Q (s.ran ((slot s.shm L t).entries.map fun e => call_of (s.shm.thread t) e.2).reverse data rt))
    (hE : ∀ xs e ys, (slot s.shm L t).entries = xs ++ e :: ys → e.2.funct = 0 → ∀ data rt,
      E (s.ran (xs.map fun e => call_of (s.shm.thread t) e.2).reverse data rt)) :
    Wp (thread_task_cycle R code t) s (fun _ s' => Q s') fun e s' => e = .segv ∧ (Q s' ∨ E s') := by
  have hroot : t + THREAD_FUNCT_LIST ∈ L.roots := Shape.thread_root (.inl ht)
  have hf : ∀ e ∈ L.ring (t + THREAD_FUNCT_LIST), (s.shm.entry e).funct_ptr ≠ 0 := fun e he => by
    obtain ⟨p, hp, hpe, -⟩ := h.good.sound.linked (e, s.shm.entry e)
      (mem_entries.mpr ⟨t, ht, he, rfl⟩)
    rw [← hpe]
    exact h.good.shape.act_ne_zero (mem_tab.mp hp).1
  have hentries : (slot s.shm L t).entries =
      (L.ring (t + THREAD_FUNCT_LIST)).map fun e => (e, s.shm.entry e) := rfl
  have hmap : ∀ es : List Nat, ((es.map fun e => (e, s.shm.entry e)).map fun e =>
      call_of (s.shm.thread t) e.2) = es.map fun e => call_of (s.shm.thread t) (s.shm.entry e) :=
    fun es => by rw [List.map_map]; rfl
  rw [hentries, hmap] at hQ
  have hQ : (∀ e ∈ L.ring (t + THREAD_FUNCT_LIST), (s.shm.entry e).funct ≠ 0) → ∀ data rt, Q _ :=
    fun hall => hQ (List.forall_mem_map.mpr hall)
  have hnext := h.good.shape.next_root hroot
  unfold thread_task_cycle
  simp only [wp_bind, wp_get]
  refine .ite (fun _ => ?_) fun hn => absurd hrun hn
  rw [wp_bind, wp_look, hnext]
  refine .ite (fun _ => ?_) fun hempty => ?_
  · simp only [wp_bind, wp_call]
    have hrun := run_functs_calls R code (s := { s with rt := (R.get_clocks s.rt).2 }) (t := t)
      h.good.shape hroot (List.nil_append _).symm hf (h.good.shape.ring_short hroot)
      (R.get_clocks s.rt).1
    refine hrun.mono (fun end_time s₁ hpost => ?_) fun err s₁ hpost => ?_
    · obtain ⟨hall, data, rt, hs₁⟩ := hpost
      subst hs₁
      rw [wp_look]
      unfold store
      split_ifs with hp
      · exact ⟨rfl, .inl (hQ hall _ _)⟩
      · rw [wp_change, wp_change]
        split_ifs <;> exact hQ hall _ _
    · obtain ⟨he, zs, z, rest, hsplit, hz, data, rt, hs₁⟩ := hpost
      subst hs₁
      refine ⟨he, .inr ?_⟩
      have hstop := hE (zs.map fun e => (e, s.shm.entry e)) (z, s.shm.entry z)
        (rest.map fun e => (e, s.shm.entry e)) (by rw [hentries, hsplit, List.map_append]; rfl) hz
      rw [hmap] at hstop
      exact hstop data rt
  · -- an empty schedule
    have hnil : L.ring (t + THREAD_FUNCT_LIST) = [] := by
      rcases hl : L.ring (t + THREAD_FUNCT_LIST) with _ | ⟨y, ys⟩
      · rfl
      · rw [hl] at hempty
        have hnd := h.good.shape.rings.nodup _ hroot
        rw [hl] at hnd
        exact absurd (by simpa using hempty) fun e : y = t + THREAD_FUNCT_LIST =>
          (List.nodup_cons.mp hnd).1 (by simp [e])
    have := hQ (fun e he => absurd (hnil ▸ he) List.not_mem_nil) s.shm.data s.rt
    rw [hnil] at this
    exact this

end

end RTS.Hal

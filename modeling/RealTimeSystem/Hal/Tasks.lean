import RealTimeSystem.Hal.Components
import RealTimeSystem.Hal.Registers
import RealTimeSystem.Hal.Schedules

/-!
# HAL — threads come and go

`free_thread_struct` pauses and deletes a task, and frees the thread with its entries.  It is called
on a thread that was unlinked (`Good.unlink_thread`) and, when `hal_create_thread` rolls back, on one
that was never listed (`Good.drop_hand`).  `struck` is the state behind its two calls of RTAPI.
-/

namespace RTS.Hal

open RTS.Support

variable {σ : Type}

/-! ### Freeing a thread -/

theorem clear_thread_eq {m : Segment} {L : Lists} {t : Nat} (h : Shape m.arena L)
    (hh : L.hand .thread = [t])
    (hf : ∀ e ∈ L.ring (t + THREAD_FUNCT_LIST), (m.entry e).funct_ptr ≠ 0) :
    ∃ a th, m.clear_thread t = some { m with
          arena := a
          funct := discharge (tab m.entry (L.ring (t + THREAD_FUNCT_LIST))) m.funct
          entry := cleared (L.ring (t + THREAD_FUNCT_LIST)) m.entry
          thread := th } ∧
      (∀ u, u ≠ t → th u = m.thread u) ∧ Grown m.arena a ∧
      Shape a ((L.reclaim (t + THREAD_FUNCT_LIST) []
        (L.ring (t + THREAD_FUNCT_LIST)).reverse).drop .thread t) := by
  set r := t + THREAD_FUNCT_LIST with hr
  have hhand : t ∈ L.act .thread ∨ t ∈ L.hand .thread := .inr (by simp [hh])
  have hroot : r ∈ L.roots := Shape.thread_root hhand
  have hr0 : r ≠ FUNCT_ENTRY_FREE := h.root_ne_idle hhand
  set m₁ := m.setThread t { m.thread t with uses_fp := 0, period := 0, priority := 0, task_id := 0 }
    with hm₁
  obtain ⟨a, e, hg, hs⟩ := free_entries_eq (m := m₁) (fun _ => true) h
    hroot hr0 (List.nil_append _).symm (fun e he _ => hf e he) (h.ring_short hroot)
  simp only [List.filter_true, Bool.not_true, List.filter_false, List.append_nil] at e hs
  have hd := hs.drop_thread (show Lists.hand _ .thread = t :: [] from hh) (Lists.reclaim_self hr0)
  refine ⟨a.setPool .thread ((a.pool .thread).pushFree t),
    Function.update m₁.thread t { m₁.thread t with name := [] }, ?_, fun u hu => ?_,
    hg.trans (.of_eq rfl rfl), hd⟩
  · rw [Segment.clear_thread]
    simp only [← hm₁, ← hr]
    rw [show m₁.arena.links.next r = (L.ring r).headD r from h.next_root hroot, e]
    rfl
  · simp [hm₁, Segment.setThread, hu]

/-- The state behind the RTAPI calls of `free_thread_struct`, in the segment `m`. -/
def struck (R : Rtapi σ) (s : State σ) (m : Segment) (t : Nat) : State σ :=
  { s with
    strikes := ⟨(m.thread t).task_id, { m with threads_running := 0 }⟩ ::
      ⟨(m.thread t).task_id, { m with threads_running := 0 }⟩ :: s.strikes
    rt := (R.task_delete (m.thread t).task_id (R.task_pause (m.thread t).task_id s.rt).2).2 }

theorem wp_free_thread (R : Rtapi σ) {s : State σ} {m m' : Segment} {t : Nat}
    (h : ({ m with threads_running := 0 } : Segment).clear_thread t = some m')
    {Q : Unit → State σ → Prop} {E : Stop → State σ → Prop} :
    Wp (free_thread_struct R t) (opened s m) Q E ↔ Q () (opened (struck R s m t) m') := by
  unfold free_thread_struct rtapi_task_pause rtapi_task_delete
  simp only [wp_bind, wp_change, wp_look, wp_modify, wp_call]
  rw [wp_walkTo (by rw [show (opened s m).shm = m from rfl, h]; rfl)]
  exact Iff.rfl

/-- The entries of a listed thread, in the registry. -/
theorem entriesOf_view {m : Segment} {L : Lists} {t : Nat} (h : Shape m.arena L)
    (ht : t ∈ L.act .thread) :
    (view m L).entriesOf t = tab m.entry (L.ring (t + THREAD_FUNCT_LIST)) := by
  have hnd : ((view m L).threads.map Slot.off).Nodup := by
    simpa [view, Function.comp_def] using (h.rep .thread).used.nodup
  obtain ⟨ss₁, ss₂, hss, hne⟩ := slot_split hnd (s := slot m L t) (List.mem_map_of_mem ht)
  exact entriesOf_split hss hne

/-- The registry without the thread `t`, whose entries are freed. -/
theorem drop_thread_view {m : Segment} {L : Lists} {t : Nat} {xs ys : List Nat}
    {th : Nat → Thread} (h : Shape m.arena L) (hs : L.act .thread = xs ++ t :: ys) (m' : Segment)
    (L' : Lists)
    (hm : m' = { m with
      arena := m'.arena, threads_running := m'.threads_running
      funct := discharge (tab m.entry (L.ring (t + THREAD_FUNCT_LIST))) m.funct
      entry := cleared (L.ring (t + THREAD_FUNCT_LIST)) m.entry
      thread := th })
    (hth : ∀ u, u ≠ t → th u = m.thread u)
    (hact : ∀ k, L'.act k = if k = .thread then xs ++ ys else L.act k)
    (hring : ∀ u ∈ xs ++ ys, L'.ring (u + THREAD_FUNCT_LIST) = L.ring (u + THREAD_FUNCT_LIST)) :
    view m' L' = (view m L).apply (.dropThread t) := by
  have ht : t ∈ L.act .thread := by simp [hs]
  have htxy := notMem_of_split h hs
  have hslot : ∀ u ∈ xs ++ ys, slot m' L' u = slot m L u := fun u hu => by
    have hut : u ≠ t := ne_of_mem_of_not_mem hu htxy
    have hu' : u ∈ L.act .thread := by rw [hs]; simp at hu ⊢; tauto
    have htab : tab (cleared (L.ring (t + THREAD_FUNCT_LIST)) m.entry)
        (L.ring (u + THREAD_FUNCT_LIST)) = tab m.entry (L.ring (u + THREAD_FUNCT_LIST)) := by
      refine tab_congr fun e he => cleared_of_notMem fun he' => ?_
      exact h.rings.apart _ (Shape.thread_root (.inl hu')) _ (Shape.thread_root (.inl ht))
        (fun e => hut (Blocks.root_ne e)) (List.mem_cons_of_mem _ he) (List.mem_cons_of_mem _ he')
    rw [hm, slot, slot, hring u hu]
    exact congrArg₂ (Slot.mk u) (hth u hut) htab
  have hthreads : (L'.act .thread).map (slot m' L') =
      ((L.act .thread).map (slot m L)).filter fun s => s.off ≠ t := by
    rw [hact, if_pos rfl, List.map_congr_left hslot, hs, List.filter_map]
    have hkeep : ∀ zs ⊆ xs ++ ys, zs.filter (fun z => decide (z ≠ t)) = zs := fun zs hzs =>
      List.filter_eq_self.mpr fun z hz => by simpa using ne_of_mem_of_not_mem (hzs hz) htxy
    have hfil : (xs ++ t :: ys).filter ((fun s : Slot => decide (s.off ≠ t)) ∘ slot m L) =
        xs ++ ys := by
      show (xs ++ t :: ys).filter (fun z => decide (z ≠ t)) = xs ++ ys
      rw [List.filter_append, List.filter_cons_of_neg (by simp), hkeep xs (by simp),
        hkeep ys (by simp)]
    rw [hfil]
  have hfuncts : tab m'.funct (L.act .funct) =
      release (tab m.entry (L.ring (t + THREAD_FUNCT_LIST))) (tab m.funct (L.act .funct)) := by
    rw [hm]
    simp [release, tab, discharge]
  have hcomp : m'.comp = m.comp := by rw [hm]
  have hpin : m'.pin = m.pin := by rw [hm]
  have hparam : m'.param = m.param := by rw [hm]
  unfold Registry.apply
  simp only [entriesOf_view h ht]
  unfold view
  rw [hthreads]
  simp only [hact, reduceCtorEq, if_false, hfuncts, hcomp, hpin, hparam]

/-- A listed thread is unlinked and freed. -/
theorem Good.unlink_thread {m : Segment} {L : Lists} {t : Nat} {xs ys : List Nat} (hg : Good m L)
    (hi : Idle L) (hs : L.act .thread = xs ++ t :: ys) :
    ∃ m' L', ({ m.unlink .thread (Link.of xs) t with threads_running := 0 } :
        Segment).clear_thread t = some m' ∧ Good m' L' ∧ Idle L' ∧
      view m' L' = (view m L).apply (.dropThread t) ∧ L'.act .thread = xs ++ ys ∧
      Grown m.arena m'.arena ∧ m'.mutex = m.mutex ∧ m'.lock = m.lock ∧ m'.state = m.state := by
  have ht : t ∈ L.act .thread := by simp [hs]
  have h₁ := hg.shape.pull (by decide) hs
  have hhand : (L.pull .thread (xs ++ ys) t).hand .thread = [t] := by simp [Lists.pull, hi .thread]
  have hf : ∀ e ∈ L.ring (t + THREAD_FUNCT_LIST), (m.entry e).funct_ptr ≠ 0 := fun e he => by
    obtain ⟨p, hp, hpe, -⟩ := hg.sound.linked (e, m.entry e) (mem_entries.mpr ⟨t, ht, he, rfl⟩)
    rw [← hpe]
    exact hg.shape.act_ne_zero (mem_tab.mp hp).1
  obtain ⟨a, th, e, hth, hgr, h₂⟩ := clear_thread_eq
    (m := { m.unlink .thread (Link.of xs) t with threads_running := 0 }) h₁ hhand hf
  set L' := ((L.pull .thread (xs ++ ys) t).reclaim (t + THREAD_FUNCT_LIST) []
    ((L.pull .thread (xs ++ ys) t).ring (t + THREAD_FUNCT_LIST)).reverse).drop .thread t with hL'
  have hact : ∀ k, L'.act k = if k = .thread then xs ++ ys else L.act k := fun k => by
    by_cases hk : k = .thread
    · subst hk; simp [hL', Lists.pull]
    · simp [hL', Lists.pull, hk]
  have hv := drop_thread_view hg.shape hs { m with
      arena := a, threads_running := 0
      funct := discharge (tab m.entry (L.ring (t + THREAD_FUNCT_LIST))) m.funct
      entry := cleared (L.ring (t + THREAD_FUNCT_LIST)) m.entry
      thread := th } L' rfl hth hact fun u hu => by
    have hut : u ≠ t := ne_of_mem_of_not_mem hu (notMem_of_split hg.shape hs)
    have hu' : u ∈ L.act .thread := by rw [hs]; simp at hu ⊢; tauto
    rw [hL', Lists.drop_ring, Lists.reclaim_other (fun e => hut (Blocks.root_ne e))
      (hg.shape.root_ne_idle (.inl hu'))]
    rfl
  refine ⟨_, L', e, ⟨h₂, ?_, hg.plain⟩, fun k => ?_, hv, by simp [hact],
    (Grown.of_eq rfl rfl : Grown m.arena (m.unlink .thread (Link.of xs) t).arena).trans hgr,
    rfl, rfl, rfl⟩
  · exact hv.symm ▸ hg.sound.dropThread
  · by_cases hk : k = .thread
    · subst hk; simp [hL', Lists.drop, hhand]
    · simp [hL', Lists.drop, Lists.pull, hi k]

/-! ### A new thread -/

/-- The lists with a new thread in hand. -/
def Lists.hatch (L : Lists) (t : Nat) : Lists :=
  (L.grab .thread t).setRing (t + THREAD_FUNCT_LIST) []

/-- `m` is `m₀` with a new thread `t` in hand, its record being `th`. -/
structure Hatching (m₀ : Segment) (L : Lists) (t : Nat) (th : Thread) (m : Segment) : Prop where
  shape : Shape m.arena (L.hatch t)
  grown : Grown m₀.arena m.arena
  eq : m = { m₀ with arena := m.arena, thread := Function.update m₀.thread t th }

theorem alloc_thread_cases {m : Segment} {L : Lists} (h : Shape m.arena L) :
    ((m.arena.alloc .thread).1 = 0 ∧ m.alloc_thread_struct = (0, m)) ∨
      ∃ t m', (m.arena.alloc .thread).1 = t ∧ t ≠ 0 ∧ m.alloc_thread_struct = (t, m') ∧
        Hatching m L t { m.thread t with
          uses_fp := 0, period := 0, priority := 0, task_id := 0, name := [] } m' := by
  by_cases hf : m.arena.Full .thread
  · have ha := Shape.alloc_full hf
    exact .inl ⟨by rw [ha], by simp [Segment.alloc_thread_struct, ha]⟩
  · obtain ⟨h0, hs⟩ := h.alloc_thread hf
    have hg := Grown.alloc h .thread
    rcases ha : m.arena.alloc .thread with ⟨t, a⟩
    rw [ha] at h0 hs hg
    refine .inr ⟨t, _, rfl, h0, by simp [Segment.alloc_thread_struct, ha, h0]; rfl, hs, ?_, ?_⟩
    · exact hg.trans (.of_eq rfl rfl)
    · rfl

namespace Hatching

variable {m₀ m : Segment} {L : Lists} {t : Nat} {th th' : Thread}

theorem record (h : Hatching m₀ L t th m) : m.thread t = th := by rw [h.eq]; simp

theorem set (h : Hatching m₀ L t th m) (th' : Thread) :
    Hatching m₀ L t th' (m.setThread t th') where
  shape := h.shape
  grown := h.grown
  eq := by rw [h.eq]; simp [Segment.setThread]

theorem fresh (h : Hatching m₀ L t th m) : t ∉ L.act .thread := by
  have hh : (L.hatch t).hand .thread = t :: L.hand .thread := by simp [Lists.hatch, Lists.grab]
  exact fun hm => h.shape.hand_fresh (by decide) hh (List.mem_append_left _ hm)

theorem fields (h : Hatching m₀ L t th m) :
    m.mutex = m₀.mutex ∧ m.lock = m₀.lock ∧ m.state = m₀.state := by
  rw [h.eq]
  exact ⟨rfl, rfl, rfl⟩

/-- The threads of the list are as before. -/
theorem threads (h : Hatching m₀ L t th m) :
    tab m.thread (L.act .thread) = tab m₀.thread (L.act .thread) := by
  rw [h.eq]
  exact tab_update h.fresh

theorem hatch_ring {u : Nat} (hu : u ≠ t) :
    (L.hatch t).ring (u + THREAD_FUNCT_LIST) = L.ring (u + THREAD_FUNCT_LIST) := by
  simp [Lists.hatch, Lists.setRing, Function.update_of_ne fun e => hu (Blocks.root_ne e)]

/-- Rolling back: the thread is freed, and the registry is as before. -/
theorem rollback (h : Hatching m₀ L t th m) (hg : Good m₀ L) (hi : Idle L) :
    ∃ m' L', ({ m with threads_running := 0 } : Segment).clear_thread t = some m' ∧ Good m' L' ∧
      Idle L' ∧ L'.act = L.act ∧ view m' L' = view m₀ L ∧ Grown m₀.arena m'.arena ∧
      m'.mutex = m₀.mutex ∧ m'.lock = m₀.lock ∧ m'.state = m₀.state := by
  have hhand : (L.hatch t).hand .thread = [t] := by simp [Lists.hatch, Lists.grab, hi .thread]
  have hring : (L.hatch t).ring (t + THREAD_FUNCT_LIST) = [] := by
    simp [Lists.hatch, Lists.setRing]
  obtain ⟨a, th', e, hth, hgr, hs⟩ := clear_thread_eq
    (m := { m with threads_running := 0 }) h.shape hhand (by rw [hring]; simp)
  rw [hring] at e hs
  simp only [tab, List.map_nil, discharge_nil, cleared_nil] at e
  set L' := ((L.hatch t).reclaim (t + THREAD_FUNCT_LIST) [] [].reverse).drop .thread t with hL'
  have hsame : Same m₀ L { m with arena := a, threads_running := 0, thread := th' } L' :=
    { act := rfl
      ring := fun u hu => by
        have hut : u ≠ t := ne_of_mem_of_not_mem hu h.fresh
        rw [hL', Lists.drop_ring, Lists.reclaim_other (fun e => hut (Blocks.root_ne e))
          (hg.shape.root_ne_idle (.inl hu)), hatch_ring hut]
      comp := fun x _ => by rw [h.eq]
      pin := fun x _ => by rw [h.eq]
      param := fun x _ => by rw [h.eq]
      funct := fun x _ => by rw [h.eq]
      thread := fun u hu => by
        have hut : u ≠ t := ne_of_mem_of_not_mem hu h.fresh
        refine (hth u hut).trans ?_
        show m.thread u = _
        rw [h.eq]
        exact Function.update_of_ne hut _ _
      entry := fun _ _ e _ => by rw [h.eq] }
  have hplain : Plain { m with arena := a, threads_running := 0, thread := th' } := by
    rw [h.eq]
    exact hg.plain
  refine ⟨_, L', e, hg.same hsame hs hplain, fun k => ?_, rfl, hsame.view_eq, h.grown.trans hgr, ?_,
    ?_, ?_⟩
  · by_cases hk : k = .thread
    · subst hk; simp [hL', Lists.drop, hhand]
    · simp [hL', Lists.drop, Lists.hatch, Lists.grab, hi k]
  all_goals simp only
  all_goals rw [h.eq]

/-- The new thread goes to the head of the list. -/
theorem insert (h : Hatching m₀ L t th m) (hg : Good m₀ L) (hi : Idle L)
    (hname : th.name ∉ (view m₀ L).threads.map fun s => s.thread.name) :
    ∃ L', Good (m.insert_head .thread t) L' ∧ Idle L' ∧
      view (m.insert_head .thread t) L' = (view m₀ L).apply (.addThread t th) := by
  have hhand : (L.hatch t).hand .thread = [t] := by simp [Lists.hatch, Lists.grab, hi .thread]
  have hp := h.shape.put (by decide) hhand
    (show (L.hatch t).act .thread = [] ++ L.act .thread from rfl)
  set L' := (L.hatch t).put .thread ([] ++ t :: L.act .thread) with hL'
  have hact : ∀ k, L'.act k = if k = .thread then t :: L.act .thread else L.act k := fun k => by
    by_cases hk : k = .thread
    · subst hk; simp [hL', Lists.put]
    · simp [hL', Lists.put, hk, Lists.hatch]
  have hthread : m.thread = Function.update m₀.thread t th := by rw [h.eq]
  have hentry : m.entry = m₀.entry := by rw [h.eq]
  have hslot : (L.act .thread).map (slot (m.insert_head .thread t) L') =
      (L.act .thread).map (slot m₀ L) := List.map_congr_left fun u hu => by
    have hut : u ≠ t := ne_of_mem_of_not_mem hu h.fresh
    have hr : L'.ring (u + THREAD_FUNCT_LIST) = L.ring (u + THREAD_FUNCT_LIST) := hatch_ring hut
    rw [slot, slot, hr]
    exact congrArg₂ (Slot.mk u) ((congrFun hthread u).trans (Function.update_of_ne hut _ _))
      (congrArg (tab · _) hentry)
  have hnew : slot (m.insert_head .thread t) L' t = ⟨t, th, []⟩ := by
    have hr : L'.ring (t + THREAD_FUNCT_LIST) = [] := by
      simp [hL', Lists.hatch, Lists.setRing]
    rw [slot, hr]
    exact congrArg₂ (Slot.mk t) h.record rfl
  have hv : view (m.insert_head .thread t) L' = (view m₀ L).apply (.addThread t th) := by
    unfold view Registry.apply
    simp only [hact, reduceCtorEq, if_false, if_true, List.map_cons, hnew, hslot]
    have hrest : ∀ {α : Type} (f : Segment → α), f { m₀ with
        arena := m.arena, thread := Function.update m₀.thread t th } = f m := fun f =>
      congrArg f h.eq.symm
    have hcomp : (m.insert_head .thread t).comp = m₀.comp := (hrest Segment.comp).symm
    have hpin : (m.insert_head .thread t).pin = m₀.pin := (hrest Segment.pin).symm
    have hparam : (m.insert_head .thread t).param = m₀.param := (hrest Segment.param).symm
    have hfunct : (m.insert_head .thread t).funct = m₀.funct := (hrest Segment.funct).symm
    rw [hcomp, hpin, hparam, hfunct]
  refine ⟨L', ⟨hp, ?_, ?_⟩, fun k => ?_, hv⟩
  · exact hv ▸ hg.sound.addThread
      ⟨by simpa [view, Function.comp_def] using h.fresh, hname⟩
  · show Plain m
    rw [h.eq]
    exact hg.plain
  · by_cases hk : k = .thread
    · subst hk; simp [hL', Lists.put, hhand]
    · simp [hL', Lists.put, Lists.hatch, Lists.grab, hi k]

end Hatching

end RTS.Hal

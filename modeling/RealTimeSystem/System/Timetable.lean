import RealTimeSystem.System.Boot

/-!
# System — the rings as schedules

A schedule is a list of functions, and the abstract state gives each thread name its schedule.
`Timetable s A` says that the rings of `s` are the schedules of `A`.  Adding a function inserts it
at its position from the front or from the back, deleting one removes its first occurrence, the exit
of a component removes the functions it owns from every schedule, and a cycle calls the schedule.
-/

namespace RTS.Hal

open RTS.Support RTS.Uspace

variable {σ : Type} {R : Rtapi σ}

/-! ### Schedules -/

/-- The functions of the thread with a name, in the order it calls them. -/
def Registry.schedule (g : Registry) (name : CStr) : Option (List Nat) :=
  (g.findThread name).map fun s => s.entries.map fun e => e.2.funct_ptr

/-- `f` inserted in `es` as the `p`-th from the front, or for negative `p` the `-p`-th from the
back. -/
def insertAt (es : List Nat) (p : Int) (f : Nat) : List Nat :=
  if 0 < p then es.take (p - 1).toNat ++ f :: es.drop (p - 1).toNat
  else es.take (es.length + 1 + p).toNat ++ f :: es.drop (es.length + 1 + p).toNat

/-- The rings are the schedules `A`. -/
def Timetable (s : State σ) (A : CStr → Option (List Nat)) : Prop :=
  ∃ L, Inv s L ∧ A = (view s.shm L).schedule

section
variable {g : Registry}

theorem findThread_name {name : CStr} {s : Slot} (h : g.findThread name = some s) :
    s ∈ g.threads ∧ s.thread.name = name :=
  ⟨List.mem_of_find?_eq_some h, by simpa using List.find?_some h⟩

/-- The thread of a slot is found by its name. -/
theorem findThread_mem (hg : g.Sound) {s : Slot} (hs : s ∈ g.threads) :
    g.findThread s.thread.name = some s := by
  obtain ⟨u, hu⟩ : ∃ u, g.findThread s.thread.name = some u :=
    Option.isSome_iff_exists.mp (List.find?_isSome.mpr ⟨s, hs, by simp⟩)
  obtain ⟨hmem, hname⟩ := findThread_name hu
  have : u = s := List.inj_on_of_nodup_map hg.thread_names hmem hs hname
  rw [hu, this]

/-- Changing the entries of one thread changes its schedule. -/
theorem schedule_reschedule (hg : g.Sound) {t : Slot} (ht : t ∈ g.threads)
    (f : List (Nat × Entry) → List (Nat × Entry)) {g' : Registry}
    (hg' : g'.threads = reschedule t.off f g.threads) :
    g'.schedule = Function.update g.schedule t.thread.name
      (some ((f t.entries).map fun e => e.2.funct_ptr)) := by
  funext n
  have hfind : g'.findThread n = (g.findThread n).map fun s =>
      if s.off = t.off then { s with entries := f s.entries } else s := by
    rw [Registry.findThread, hg', reschedule, List.find?_map, Registry.findThread]
    congr 2
    funext s
    by_cases hs : s.off = t.off <;> simp [hs]
  unfold Registry.schedule
  rw [hfind]
  by_cases hn : n = t.thread.name
  · subst hn
    rw [Function.update_self, findThread_mem hg ht]
    simp
  · rw [Function.update_of_ne hn]
    rcases hu : g.findThread n with _ | u
    · rfl
    · obtain ⟨hmem, hname⟩ := findThread_name hu
      have hoff : u.off ≠ t.off := fun e => by
        have : u = t := List.inj_on_of_nodup_map hg.thread_keys hmem ht e
        exact hn (hname.symm.trans (by rw [this]))
      simp [hoff]

theorem filter_keys_erase {es : List (Nat × Entry)} {e : Nat} {r : Entry}
    {xs ys : List (Nat × Entry)} (hs : es = xs ++ (e, r) :: ys) (hn : e ∉ keys xs ++ keys ys)
    (hx : ∀ x ∈ xs, x.2.funct_ptr ≠ r.funct_ptr) :
    (es.filter fun y => y.1 ≠ e).map (fun y => y.2.funct_ptr) =
      (es.map fun y => y.2.funct_ptr).erase r.funct_ptr := by
  have hkeep : ∀ zs : List (Nat × Entry), e ∉ keys zs → zs.filter (fun y => y.1 ≠ e) = zs :=
    fun zs hz => List.filter_eq_self.mpr fun y hy => by
      have : y.1 ≠ e := fun he => hz (he ▸ List.mem_map_of_mem hy)
      simpa using this
  have h₁ := hkeep xs fun h => hn (List.mem_append_left _ h)
  have h₂ := hkeep ys fun h => hn (List.mem_append_right _ h)
  subst hs
  rw [List.filter_append, List.filter_cons, h₁, h₂, List.map_append, List.map_append,
    List.map_cons, List.erase_append_right, List.erase_cons_head]
  · simp
  · intro hm
    obtain ⟨x, hxm, he⟩ := List.mem_map.mp hm
    exact hx x hxm he

/-- Dropping functions removes them from every schedule. -/
theorem schedule_dropFuncts (fs : List Nat) :
    (g.applyAll (fs.map .dropFunct)).schedule = fun n =>
      (g.schedule n).map fun es => es.filter fun f => f ∉ fs := by
  induction fs generalizing g with
  | nil => funext n; simp
  | cons x fs ih =>
      rw [List.map_cons, Registry.applyAll_cons, ih]
      funext n
      have hfind : (g.apply (.dropFunct x)).findThread n = (g.findThread n).map fun s =>
          { s with entries := s.entries.filter fun e => e.2.funct_ptr ≠ x } := by
        simp only [Registry.findThread, Registry.apply, List.find?_map, Function.comp_def]
      simp only [Registry.schedule, hfind, Option.map_map]
      congr 1
      funext s
      simp only [Function.comp, List.filter_map, List.filter_filter]
      congr 1
      refine List.filter_congr fun e _ => ?_
      by_cases h : e.2.funct_ptr = x <;> simp [h]

/-- Dropping parameters and components changes no schedule. -/
theorem schedule_of_threads {g' : Registry} (h : g'.threads = g.threads) :
    g'.schedule = g.schedule := by
  funext n
  simp only [Registry.schedule, Registry.findThread, h]

/-- **The exit of a component** removes the functions it owns from every schedule. -/
theorem schedule_leave (g : Registry) (x : Nat) :
    (g.applyAll (g.leave x)).schedule = fun n => (g.schedule n).map fun es =>
      es.filter fun f => f ∉ keys (g.functs.filter fun p => p.2.owner_ptr = x) := by
  unfold Registry.leave
  rw [List.append_assoc, Registry.applyAll_append]
  have hrest : ∀ ev ∈ (g.params.filter fun p => p.2.owner_ptr = x).map
      (fun p => Event.dropParam p.1) ++ [.dropComp x], ∀ g : Registry,
      (g.apply ev).threads = g.threads := fun ev hev g => by
    rcases List.mem_append.mp hev with h | h
    · obtain ⟨p, -, rfl⟩ := List.mem_map.mp h
      rfl
    · rw [List.mem_singleton.mp h]
      rfl
  rw [schedule_of_threads (Registry.applyAll_keeps (f := Registry.threads) hrest)]
  have : ((g.functs.filter fun p => p.2.owner_ptr = x).map fun p => Event.dropFunct p.1) =
      (keys (g.functs.filter fun p => p.2.owner_ptr = x)).map .dropFunct := by
    simp [keys]
  rw [this, schedule_dropFuncts]

end

/-! ### The operations on schedules -/

variable {s : State σ} {A : CStr → Option (List Nat)}

theorem insertAt_eq {es : List (Nat × Entry)} {p : Int} {i e : Nat} {r : Entry}
    (hi : Registry.position es.length p = some i) :
    (es.take i ++ (e, r) :: es.drop i).map (fun e => e.2.funct_ptr) =
      insertAt (es.map fun e => e.2.funct_ptr) p r.funct_ptr := by
  unfold Registry.position at hi
  unfold insertAt
  split_ifs at hi ⊢ with h₁ h₂ h₃ h₄ <;> first
    | omega
    | (obtain rfl := Option.some.inj hi; simp)

/-- **Adding a function.** -/
theorem add_schedules (h : Timetable s A) {fname tname : CStr} {f t : Nat} (p : Int)
    (hlock : s.shm.lock &&& HAL_LOCK_CONFIG = 0)
    (hf : s.shm.halpr_find_funct_by_name fname = some f) (hf0 : f ≠ 0)
    (ht : s.shm.halpr_find_thread_by_name tname = some t) (ht0 : t ≠ 0)
    (havail : ¬ ((s.shm.funct f).users > 0 ∧ (s.shm.funct f).reentrant = 0))
    (hfp : ¬ ((s.shm.funct f).uses_fp ≠ 0 ∧ (s.shm.thread t).uses_fp = 0))
    (halloc : s.shm.arena.alloc_entry ≠ none) :
    ∃ es r s', A tname = some es ∧
      hal_add_funct_to_thread (some fname) (some tname) p s = .ok r s' ∧
      (r = 0 ↔ p ≠ 0 ∧ p.natAbs ≤ es.length + 1) ∧
      (r = 0 → Timetable s' (Function.update A tname (some (insertAt es p f)))) ∧
      (r ≠ 0 → Timetable s' A) := by
  obtain ⟨L, hinv, rfl⟩ := h
  have hg := hinv.good.sound
  rcases find_funct_cases hinv.good.shape fname with ⟨hf', -⟩ | ⟨f', -, -, hf', hfv, -⟩
  · exact absurd (Option.some.inj (hf'.symm.trans hf)) hf0.symm
  obtain rfl : f = f' := Option.some.inj (hf.symm.trans hf')
  rcases find_thread_cases hinv.good.shape tname with ⟨ht', -⟩ | ⟨t', htm, -, ht', htv, hname⟩
  · exact absurd (Option.some.inj (ht'.symm.trans ht)) ht0.symm
  obtain rfl : t = t' := Option.some.inj (ht.symm.trans ht')
  set es := (slot s.shm L t).entries with hes
  have hspec : ∀ new, (view s.shm L).add_funct s.shm.lock new (some fname) (some tname) p =
      (Registry.position es.length p).elim (-EINVAL, []) fun i => (0, [.schedule t i new
        { funct_ptr := f, arg := (s.shm.funct f).arg, funct := (s.shm.funct f).funct }]) :=
    fun new => by
      unfold Registry.add_funct
      rw [if_neg (not_not_intro hlock), Option.bind_some, Option.bind_some, hfv, htv]
      simp only [if_neg havail, slot_off, hes]
      refine (if_neg hfp).trans ?_
      cases Registry.position es.length p <;> rfl
  have hadd := hal_add_funct_spec hinv (some fname) (some tname) p rfl
  rw [hspec] at hadd
  have hA : (view s.shm L).schedule tname = some (es.map fun e => e.2.funct_ptr) := by
    simp only [Registry.schedule, htv, Option.map_some, hes]
  obtain ⟨r, s', hrun, hr, L', hm, -⟩ : ∃ r s', hal_add_funct_to_thread (some fname) (some tname) p s =
      .ok r s' ∧ Refines s L _ r s' := by
    rcases hrun : hal_add_funct_to_thread (some fname) (some tname) p s with ⟨r, s'⟩ | ⟨e, s'⟩
    · exact ⟨r, s', rfl, (hadd.of_ok hrun).2⟩
    · unfold Wp at hadd
      rw [hrun] at hadd
      exact absurd hadd.2.2 halloc
  refine ⟨_, r, s', hA, hrun, ?_⟩
  rw [List.length_map]
  have hpos := position_isSome (m := es.length) (p := p)
  rcases hp : Registry.position es.length p with _ | i
  · rw [hp] at hr hm hpos
    have hr : r = -EINVAL := hr
    have hne : r ≠ 0 := by rw [hr]; decide
    refine ⟨⟨fun h => absurd h hne, fun h => absurd (hpos.mpr h) (by simp)⟩,
      fun h => absurd h hne, fun _ => ⟨L', hm.inv, ?_⟩⟩
    rw [hm.events]
    rfl
  · rw [hp] at hr hm hpos
    refine ⟨⟨fun _ => hpos.mp rfl, fun _ => hr⟩, fun _ => ⟨L', hm.inv, ?_⟩, fun h => absurd hr h⟩
    have hmem : slot s.shm L t ∈ (view s.shm L).threads := List.mem_map_of_mem htm
    have hev : (view s'.shm L').schedule = _ := schedule_reschedule hg hmem (fun es => es.take i ++
      ((s.shm.arena.alloc_entry.map Prod.fst).getD 0,
        { funct_ptr := f, arg := (s.shm.funct f).arg, funct := (s.shm.funct f).funct }) ::
      es.drop i) (by rw [hm.events]; rfl)
    rw [hev, insertAt_eq hp]
    show Function.update _ tname _ = Function.update _ (s.shm.thread t).name _
    rw [hname]

/-- **Deleting a function.** -/
theorem del_schedules (h : Timetable s A) (fname tname : Option CStr) :
    ∃ r s', hal_del_funct_from_thread fname tname s = .ok r s' ∧
      (r ≠ 0 ∧ Timetable s' A ∨
        r = 0 ∧ ∃ fn tn f es, fname = some fn ∧ tname = some tn ∧
          s.shm.halpr_find_funct_by_name fn = some f ∧ A tn = some es ∧ f ∈ es ∧
          Timetable s' (Function.update A tn (some (es.erase f)))) := by
  obtain ⟨L, hinv, rfl⟩ := h
  have hg := hinv.good.sound
  obtain ⟨r, s', hrun, hr, L', hm, -⟩ := (hal_del_funct_refines hinv fname tname).exists_ok
  refine ⟨r, s', hrun, ?_⟩
  have refuse : (r, (view s'.shm L')) = (-EINVAL, view s.shm L) ∨
      (r, (view s'.shm L')) = (-EPERM, view s.shm L) →
      r ≠ 0 ∧ Timetable s' (view s.shm L).schedule := fun h => by
    rcases h with h | h <;> obtain ⟨h₁, h₂⟩ := Prod.mk.inj h <;>
      exact ⟨by rw [h₁]; decide, L', hm.inv, by rw [h₂]⟩
  have hview := hm.events
  unfold Registry.del_funct at hr hview
  by_cases hl : s.shm.lock &&& HAL_LOCK_CONFIG ≠ 0
  · rw [if_pos hl] at hr hview
    exact .inl (refuse (.inr (Prod.ext hr hview)))
  rw [if_neg hl] at hr hview
  rcases fname with _ | fn
  · exact .inl (refuse (.inl (Prod.ext hr hview)))
  rcases tname with _ | tn
  · simp only [Option.bind_some, Option.bind_none] at hr hview
    rcases hx : (view s.shm L).findFunct fn with _ | _ <;> rw [hx] at hr hview <;>
      exact .inl (refuse (.inl (Prod.ext hr hview)))
  simp only [Option.bind_some] at hr hview
  rcases find_funct_cases hinv.good.shape fn with ⟨-, hfv⟩ | ⟨f, -, -, hf, hfv, -⟩
  · rw [hfv] at hr hview
    exact .inl (refuse (.inl (Prod.ext hr hview)))
  rcases find_thread_cases hinv.good.shape tn with ⟨-, htv⟩ | ⟨t, htm, -, -, htv, hname⟩
  · rw [hfv, htv] at hr hview
    exact .inl (refuse (.inl (Prod.ext hr hview)))
  rw [hfv, htv] at hr hview
  simp only at hr hview
  rcases hfind : (slot s.shm L t).entries.find? (fun e => e.2.funct_ptr = f) with _ | ⟨e, rec⟩
  · rw [hfind] at hr hview
    exact .inl (refuse (.inl (Prod.ext hr hview)))
  rw [hfind] at hr hview
  have hmem : slot s.shm L t ∈ (view s.shm L).threads := List.mem_map_of_mem htm
  refine .inr ⟨hr, fn, tn, f, (slot s.shm L t).entries.map fun e => e.2.funct_ptr, rfl, rfl, hf, ?_,
    ?_, L', hm.inv, ?_⟩
  · simp only [Registry.schedule, htv, Option.map_some]
  · have hrec : rec.funct_ptr = f := by simpa using List.find?_some hfind
    exact List.mem_map.mpr ⟨(e, rec), List.mem_of_find?_eq_some hfind, hrec⟩
  · obtain ⟨hrec, xs, ys, hsplit, hxs⟩ := List.find?_eq_some_iff_append.mp hfind
    have hrec : rec.funct_ptr = f := by simpa using hrec
    have hnodup : (keys (slot s.shm L t).entries).Nodup := by
      rw [slot_entries, keys_tab]
      exact (List.nodup_cons.mp (hinv.good.shape.rings.nodup _ (Shape.thread_root (.inl htm)))).2
    have hout : e ∉ keys xs ++ keys ys := by
      rw [hsplit, keys, List.map_append, List.map_cons] at hnodup
      exact (List.nodup_cons.mp (List.perm_middle.nodup_iff.mp hnodup)).1
    have hev : (view s'.shm L').schedule = _ :=
      schedule_reschedule hg hmem (fun es => es.filter fun y => y.1 ≠ e) (by rw [hview]; rfl)
    rw [hev, filter_keys_erase hsplit hout fun x hx => ?_, hrec]
    · show Function.update _ tn _ = Function.update _ (s.shm.thread t).name _
      rw [hname]
    · rw [hrec]
      simpa using hxs x hx

/-- Every function of a schedule is listed. -/
theorem schedule_listed {g : Registry} (hg : g.Sound) {n : CStr} {es : List Nat}
    (h : g.schedule n = some es) {f : Nat} (hf : f ∈ es) : ∃ p ∈ g.functs, p.1 = f := by
  obtain ⟨u, hu, rfl⟩ := Option.map_eq_some_iff.mp h
  obtain ⟨e, he, rfl⟩ := List.mem_map.mp hf
  obtain ⟨p, hp, hpf, -⟩ := hg.linked e
    (List.mem_flatMap.mpr ⟨u, (findThread_name hu).1, he⟩)
  exact ⟨p, hp, hpf⟩

/-- **The exit of a component.** -/
theorem exit_schedules (h : Timetable s A) (comp_id : Int) :
    ∃ r s', hal_exit R comp_id s = .ok r s' ∧
      (r ≠ 0 ∧ Timetable s' A ∨
        r = 0 ∧ ∃ c, c ≠ 0 ∧ s.shm.halpr_find_comp_by_id comp_id = some c ∧
          Timetable s' fun n => (A n).map fun es =>
            es.filter fun f => (s.shm.funct f).owner_ptr ≠ c) := by
  obtain ⟨L, hinv, rfl⟩ := h
  have hg := hinv.good.sound
  obtain ⟨r, s', hrun, hr, ⟨L', hm⟩, -⟩ := (hal_exit_spec R hinv comp_id).exists_ok
  refine ⟨r, s', hrun, ?_⟩
  have hview := hm.events
  unfold Registry.exit at hr hview
  by_cases hd : s.shm.state = .destroyed
  · rw [if_pos hd] at hr hview
    exact .inl ⟨by rw [hr]; decide, L', hm.inv, by rw [hview]; rfl⟩
  rw [if_neg hd] at hr hview
  rcases find_comp_cases hinv.good.shape comp_id with ⟨-, hv⟩ | ⟨c, -, hc0, hf, hv, -⟩
  · rw [hv] at hr hview
    have hr : r = -EINVAL := hr
    exact .inl ⟨by rw [hr]; decide, L', hm.inv, by rw [hview]; rfl⟩
  rw [hv] at hr hview
  refine .inr ⟨hr, c, hc0, hf, L', hm.inv, ?_⟩
  rw [hview, schedule_leave]
  funext n
  rcases hn : (view s.shm L).schedule n with _ | es
  · rfl
  · simp only [Option.map_some]
    congr 1
    refine List.filter_congr fun f hfm => ?_
    obtain ⟨p, hp, rfl⟩ := schedule_listed hg hn hfm
    obtain ⟨hact, hrec⟩ := mem_tab.mp hp
    have hiff : p.1 ∉ keys ((view s.shm L).functs.filter fun p => p.2.owner_ptr = c) ↔
        (s.shm.funct p.1).owner_ptr ≠ c := by
      refine not_congr ⟨fun hk => ?_, fun ho => ?_⟩
      · obtain ⟨q, hq, hqp⟩ := List.mem_map.mp hk
        obtain ⟨hq, ho⟩ := List.mem_filter.mp hq
        rw [← hqp, ← (mem_tab.mp hq).2]
        simpa using ho
      · refine List.mem_map.mpr ⟨p, List.mem_filter.mpr ⟨hp, ?_⟩, rfl⟩
        rw [hrec]
        simpa using ho
    simp only [hiff]

/-- What a thread calls for a function of its schedule. -/
def Segment.called (m : Segment) (t f : Nat) : Called :=
  ⟨(m.funct f).funct, (m.funct f).arg, (m.thread t).period⟩

/-- A cycle of the thread `t` calls the functions `es`, each once, in order, and leaves the schedules
as they are.  It returns, or the process crashes behind the last call, at the store of the run
time. -/
structure Performs (R : Rtapi σ) (code : Addr → Addr → Int → (Addr → Int) → (Addr → Int))
    (s : State σ) (t : Nat) (es : List Nat) (A : CStr → Option (List Nat)) : Prop where
  cycle : Wp (thread_task_cycle R code t) s
    (fun _ s' => s'.calls = (es.map (s.shm.called t)).reverse ++ s.calls ∧ Timetable s' A)
    fun e s' => e = .segv ∧
      s'.calls = (es.map (s.shm.called t)).reverse ++ s.calls ∧ Timetable s' A

/-- As many calls as functions. -/
theorem Performs.length {code : Addr → Addr → Int → (Addr → Int) → (Addr → Int)} {t : Nat}
    {es : List Nat} {s' : State σ} (h : Performs R code s t es A)
    (hrun : thread_task_cycle R code t s = .ok () s') (h₀ : s.calls = []) :
    s'.calls.length = es.length := by
  rw [(h.cycle.of_ok hrun).1, h₀, List.append_nil, List.length_reverse, List.length_map]

/-- A thread has an entry behind its root where its schedule is not empty. -/
theorem Timetable.next_root (h : Timetable s A) {t : Nat} (ht : s.shm.Listed .thread t)
    (hA : A (s.shm.thread t).name = some []) :
    s.shm.arena.links.next (t + THREAD_FUNCT_LIST) = t + THREAD_FUNCT_LIST := by
  obtain ⟨L, hinv, rfl⟩ := h
  have hact := hinv.good.shape.listed.mp ht
  have hmem : slot s.shm L t ∈ (view s.shm L).threads := List.mem_map_of_mem hact
  have hfind := findThread_mem hinv.good.sound hmem
  rw [slot_thread] at hfind
  simp only [Registry.schedule, hfind, Option.map_some, Option.some.injEq, List.map_eq_nil_iff,
    slot_entries, tab] at hA
  rw [hinv.good.shape.next_root (Shape.thread_root (.inl hact)), hA]
  rfl

/-- **A cycle** calls the schedule if and only if none of its functions is null. -/
theorem cycle_schedules (h : Timetable s A) {t : Nat} (ht : s.shm.Listed .thread t)
    (hrun : s.shm.threads_running > 0)
    (code : Addr → Addr → Int → (Addr → Int) → (Addr → Int)) :
    ∃ es, A (s.shm.thread t).name = some es ∧
      (Performs R code s t es A ↔ ∀ f ∈ es, (s.shm.funct f).funct ≠ 0) := by
  obtain ⟨L, hinv, rfl⟩ := h
  have hact := hinv.good.shape.listed.mp ht
  have hmem : slot s.shm L t ∈ (view s.shm L).threads := List.mem_map_of_mem hact
  have hA : (view s.shm L).schedule (s.shm.thread t).name =
      some ((slot s.shm L t).entries.map fun e => e.2.funct_ptr) := by
    have := findThread_mem hinv.good.sound hmem
    rw [slot_thread] at this
    simp only [Registry.schedule, this, Option.map_some]
  -- an entry holds what its function was exported with
  have hentry : ∀ e ∈ (slot s.shm L t).entries, (s.shm.funct e.2.funct_ptr).arg = e.2.arg ∧
      (s.shm.funct e.2.funct_ptr).funct = e.2.funct := fun e he => by
    obtain ⟨p, hp, hpe, harg, hfunct⟩ := hinv.good.sound.linked e
      (List.mem_flatMap.mpr ⟨_, hmem, he⟩)
    rw [← hpe, ← harg, ← hfunct, (mem_tab.mp hp).2]
    exact ⟨rfl, rfl⟩
  have hcalls : ((slot s.shm L t).entries.map fun e => e.2.funct_ptr).map (s.shm.called t) =
      (slot s.shm L t).entries.map fun e => call_of (s.shm.thread t) e.2 := by
    rw [List.map_map]
    refine List.map_congr_left fun e he => ?_
    simp only [Function.comp, Segment.called, call_of, hentry e he]
  have hnull : (∀ f ∈ (slot s.shm L t).entries.map fun e => e.2.funct_ptr,
      (s.shm.funct f).funct ≠ 0) ↔ ∀ e ∈ (slot s.shm L t).entries, e.2.funct ≠ 0 := by
    rw [List.forall_mem_map]
    exact forall₂_congr fun e he => by rw [(hentry e he).2]
  refine ⟨_, hA, ?_⟩
  rw [hnull]
  set es := (slot s.shm L t).entries with hes
  have hcycle := thread_task_cycle_calls R code hinv hact hrun
    (Q := fun s' => (∀ e ∈ es, e.2.funct ≠ 0) ∧ s'.calls =
      (es.map fun e => call_of (s.shm.thread t) e.2).reverse ++ s.calls ∧
        Timetable s' (view s.shm L).schedule)
    (E := fun s' => ∃ e ∈ es, e.2.funct = 0 ∧ ∃ xs : List (Nat × Entry),
      xs.length < es.length ∧ s'.calls =
        (xs.map fun e => call_of (s.shm.thread t) e.2).reverse ++ s.calls)
    (fun hall data rt => ⟨hall, rfl, L, hinv.ran _ data rt, rfl⟩)
    fun xs e ys hsplit he data rt => ⟨e, by rw [hes, hsplit]; simp, he, xs,
      by rw [hes, hsplit]; simp, rfl⟩
  constructor
  · rintro ⟨hdone⟩
    rw [hcalls] at hdone
    cases hx : thread_task_cycle R code t s with
    | ok r s' => exact (hcycle.of_ok hx).1
    | error e s' =>
        unfold Wp at hcycle hdone
        rw [hx] at hcycle hdone
        rcases hcycle.2 with hall | ⟨_, -, -, xs, hlen, hless⟩
        · exact hall.1
        -- too few calls were made
        · have hlength := congrArg List.length (hdone.2.1.symm.trans hless)
          simp at hlength
          omega
  · intro hall
    constructor
    rw [hcalls]
    refine hcycle.mono (fun _ _ h => h.2) fun e s' ⟨he, hs'⟩ => ⟨he, ?_⟩
    rcases hs' with hs' | ⟨e, hmem, h₀, -⟩
    · exact hs'.2
    · exact absurd h₀ (hall e hmem)

/-- **The rings refine the schedules** in every reachable state: the operations on them, and a cycle
if and only if it has no null function to call. -/
theorem timetable_refines (h : Reachable R s) : ∃ A, Timetable s A ∧
    (∀ fname tname f t p, s.shm.lock &&& HAL_LOCK_CONFIG = 0 →
      s.shm.halpr_find_funct_by_name fname = some f → f ≠ 0 →
      s.shm.halpr_find_thread_by_name tname = some t → t ≠ 0 →
      ¬ ((s.shm.funct f).users > 0 ∧ (s.shm.funct f).reentrant = 0) →
      ¬ ((s.shm.funct f).uses_fp ≠ 0 ∧ (s.shm.thread t).uses_fp = 0) →
      s.shm.arena.alloc_entry ≠ none →
      ∃ es r s', A tname = some es ∧
        hal_add_funct_to_thread (some fname) (some tname) p s = .ok r s' ∧
        (r = 0 ↔ p ≠ 0 ∧ p.natAbs ≤ es.length + 1) ∧
        (r = 0 → Timetable s' (Function.update A tname (some (insertAt es p f)))) ∧
        (r ≠ 0 → Timetable s' A)) ∧
    (∀ fname tname, ∃ r s', hal_del_funct_from_thread fname tname s = .ok r s' ∧
      (r ≠ 0 ∧ Timetable s' A ∨
        r = 0 ∧ ∃ fn tn f es, fname = some fn ∧ tname = some tn ∧
          s.shm.halpr_find_funct_by_name fn = some f ∧ A tn = some es ∧ f ∈ es ∧
          Timetable s' (Function.update A tn (some (es.erase f))))) ∧
    (∀ comp_id, ∃ r s', hal_exit R comp_id s = .ok r s' ∧
      (r ≠ 0 ∧ Timetable s' A ∨
        r = 0 ∧ ∃ c, c ≠ 0 ∧ s.shm.halpr_find_comp_by_id comp_id = some c ∧
          Timetable s' fun n => (A n).map fun es =>
            es.filter fun f => (s.shm.funct f).owner_ptr ≠ c)) ∧
    ∀ t, s.shm.Listed .thread t → s.shm.threads_running > 0 → ∀ code,
      ∃ es, A (s.shm.thread t).name = some es ∧
        (Performs R code s t es A ↔ ∀ f ∈ es, (s.shm.funct f).funct ≠ 0) := by
  obtain ⟨L, hinv⟩ := h.inv
  have hA : Timetable s (view s.shm L).schedule := ⟨L, hinv, rfl⟩
  exact ⟨_, hA, fun _ _ _ _ p h₁ h₂ h₃ h₄ h₅ h₆ h₇ h₈ => add_schedules hA p h₁ h₂ h₃ h₄ h₅ h₆ h₇ h₈,
    del_schedules hA, exit_schedules hA, fun _ ht hrun code => cycle_schedules hA ht hrun code⟩

/-- Every function of a schedule is on the list of functions. -/
theorem Timetable.listed (h : Timetable s A) {n : CStr} {es : List Nat} (hA : A n = some es) {f : Nat}
    (hf : f ∈ es) : s.shm.Listed .funct f := by
  obtain ⟨L, hinv, rfl⟩ := h
  obtain ⟨p, hp, rfl⟩ := schedule_listed hinv.good.sound hA hf
  exact hinv.good.shape.listed.mpr (mem_tab.mp hp).1

/-! ### Two schedules -/

/-- Function code that leaves memory as it is. -/
def idleCode (_ _ : Addr) (_ : Int) (data : Addr → Int) : Addr → Int := data

/-- The function of the run goes behind itself, and the threads start. -/
def twice : State Machine :=
  played (rtapi serving)
    [.hal_add_funct_to_thread (some (lit ['f'])) (some (lit ['t'])) (-1), .hal_start_threads] scheduled

theorem twice_reachable : Reachable (rtapi serving) twice :=
  have ⟨_, _, hb, hr⟩ := scheduled_reachable
  have hplay : Playable (rtapi serving) (fun _ _ => True)
      [.hal_add_funct_to_thread (some (lit ['f'])) (some (lit ['t'])) (-1), .hal_start_threads]
      scheduled :=
    ⟨trivial, trivial, by decide +kernel, trivial, trivial, by decide +kernel, trivial⟩
  ⟨_, _, hb, hplay.runs hr⟩

theorem timetable_refines_sample :
    (∃ A es r s', Timetable scheduled A ∧ A (lit ['t']) = some es ∧
      hal_add_funct_to_thread (some (lit ['f'])) (some (lit ['t'])) (-1) scheduled = .ok r s' ∧
      r = 0 ∧ ∃ f, Timetable s' (Function.update A (lit ['t']) (some (insertAt es (-1) f)))) ∧
    ∃ A es, Timetable twice A ∧ A (lit ['t']) = some es ∧ es.length = 2 ∧
      Performs (rtapi serving) idleCode twice (twice.shm.arena.pool .thread).list_ptr es A := by
  constructor
  · obtain ⟨A, hA, hadd, -⟩ := timetable_refines scheduled_reachable
    obtain ⟨es, r, s', hes, hrun, hr, hdone, -⟩ := hadd (lit ['f']) (lit ['t'])
      ((scheduled.shm.halpr_find_funct_by_name (lit ['f'])).getD 0)
      ((scheduled.shm.halpr_find_thread_by_name (lit ['t'])).getD 0) (-1) (by decide +kernel)
      (by decide +kernel) (by decide +kernel) (by decide +kernel) (by decide +kernel)
      (by decide +kernel) (by decide +kernel) (by decide +kernel)
    have hr0 : r = 0 := hr.mpr ⟨by decide, by simp⟩
    exact ⟨A, es, r, s', hA, hes, hrun, hr0, _, hdone hr0⟩
  · obtain ⟨A, hA, -, -, -, hcycle⟩ := timetable_refines twice_reachable
    have hlisted : twice.shm.Listed .thread (twice.shm.arena.pool .thread).list_ptr :=
      (Segment.listed_one (by decide +kernel) (by decide +kernel)).mpr rfl
    have hname : (twice.shm.thread (twice.shm.arena.pool .thread).list_ptr).name = lit ['t'] := by
      decide +kernel
    obtain ⟨es, hes, hiff⟩ := hcycle _ hlisted (by decide +kernel) idleCode
    rw [hname] at hes
    have hfunct : (twice.shm.funct (twice.shm.arena.pool .funct).list_ptr).funct ≠ 0 := by
      decide +kernel
    have hone : ∀ f, twice.shm.Listed .funct f → f = (twice.shm.arena.pool .funct).list_ptr :=
      fun f => (Segment.listed_one (by decide +kernel) (by decide +kernel)).mp
    have hdone := hiff.mpr fun f hf => by
      rw [hone f (hA.listed hes hf)]
      exact hfunct
    refine ⟨A, es, hA, hes, ?_, hdone⟩
    -- the cycle makes two calls
    obtain ⟨s', hrun, hcalls⟩ : ∃ s', thread_task_cycle (rtapi serving) idleCode
        (twice.shm.arena.pool .thread).list_ptr twice = .ok () s' ∧ s'.calls.length = 2 :=
      ⟨_, after_eq (by decide +kernel), by decide +kernel⟩
    have hnone : twice.calls = [] := by decide +kernel
    exact (hdone.length hrun hnone).symm.trans hcalls

/-- A schedule with a null function: the export accepts it, and the threads start. -/
def hollow : State Machine :=
  played (rtapi serving) [.hal_init (some (lit ['c'])), .hal_export_funct (lit ['f']) 0 16 0 1 2,
    .hal_create_thread (lit ['t']) 1000000 0 50,
    .hal_add_funct_to_thread (some (lit ['f'])) (some (lit ['t'])) 1, .hal_start_threads] started

/-- The cycle ends the process at the null function, and the schedule is not called. -/
theorem null_scheduled : Reachable (rtapi serving) hollow ∧
    hollow.shm.Listed .thread (hollow.shm.arena.pool .thread).list_ptr ∧
    hollow.shm.threads_running > 0 ∧
    stops (thread_task_cycle (rtapi serving) idleCode (hollow.shm.arena.pool .thread).list_ptr)
      hollow = some .segv ∧
    ¬ ∃ A, Timetable hollow A ∧ ∃ es, A (lit ['t']) = some es ∧
      Performs (rtapi serving) idleCode hollow (hollow.shm.arena.pool .thread).list_ptr es A := by
  have hlisted : hollow.shm.Listed .thread (hollow.shm.arena.pool .thread).list_ptr :=
    (Segment.listed_one (by decide +kernel) (by decide +kernel)).mpr rfl
  have hname : (hollow.shm.thread (hollow.shm.arena.pool .thread).list_ptr).name = lit ['t'] := by
    decide +kernel
  refine ⟨Playable.reachable ⟨trivial, trivial, by decide +kernel, trivial, trivial,
    by decide +kernel, trivial, trivial, by decide +kernel, trivial, trivial, by decide +kernel,
    trivial, trivial, by decide +kernel, trivial⟩, hlisted, by decide +kernel, by decide +kernel, ?_⟩
  rintro ⟨A, hA, es, hes, hdone⟩
  obtain ⟨es', hes', hiff⟩ := cycle_schedules (R := rtapi serving) hA hlisted (by decide +kernel)
    idleCode
  rw [hname, hes] at hes'
  obtain rfl := Option.some.inj hes'
  have hfunct : (hollow.shm.funct (hollow.shm.arena.pool .funct).list_ptr).funct = 0 := by
    decide +kernel
  have hentry : hollow.shm.arena.links.next
      ((hollow.shm.arena.pool .thread).list_ptr + THREAD_FUNCT_LIST) ≠
        (hollow.shm.arena.pool .thread).list_ptr + THREAD_FUNCT_LIST := by
    decide +kernel
  rcases es with _ | ⟨f, es⟩
  · exact hentry (hA.next_root hlisted (hname.symm ▸ hes))
  · have hone : ∀ f, hollow.shm.Listed .funct f → f = (hollow.shm.arena.pool .funct).list_ptr :=
      fun f => (Segment.listed_one (by decide +kernel) (by decide +kernel)).mp
    refine hiff.mp hdone f List.mem_cons_self ?_
    rw [hone f (hA.listed hes List.mem_cons_self)]
    exact hfunct

end RTS.Hal

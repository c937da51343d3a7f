import RealTimeSystem.System.Guarantees
import RealTimeSystem.System.Traversal

/-!
# System — many threads at work

The cycles of any number of threads, each cut into its parts: the cycle begins, a function is
called, the function comes back, the cycle ends.  Between two parts of one thread the others go on,
and so do whole operations of another program.

A function that is not re-entrant is mounted once over all threads, so two threads cannot be in it,
unless an operation takes the entry of a thread that is in it.

**`exclusive`**: while no operation removes an entry that a cycle stands on, no two threads are in
one function that is not re-entrant, and a function that runs is listed.
-/

namespace RTS.Hal

open RTS.Support RTS.Uspace

variable {σ : Type} (R : Rtapi σ)

/-! ### A cycle in parts -/

/-- Where the cycle of a thread is: between two cycles, at the test of the loop with `funct_entry`,
`start_time` and `end_time`, or in the function that it called. -/
inductive Place where
  | idle
  | before (funct_entry : Nat) (start_time end_time : Int)
  | within (funct_entry : Nat) (start_time : Int) (called : Called)
  deriving DecidableEq

section
variable (code : Addr → Addr → Int → (Addr → Int) → (Addr → Int)) (thread : Nat)

/-- The thread looks at the flag and at its schedule. -/
def begin_cycle : Prog σ Place := do
  let s ← get
  if s.shm.threads_running > 0 then
    let first ← look fun m => m.arena.links.next (thread + THREAD_FUNCT_LIST)
    if first ≠ thread + THREAD_FUNCT_LIST then
      let start_time ← call R.get_clocks
      return .before first start_time start_time
    else
      return .idle
  else
    return .idle

/-- The function is called. -/
def call_funct (funct_entry : Nat) : Prog σ Called := do
  let s ← get
  let e := s.shm.entry funct_entry
  let called : Called := ⟨e.funct, e.arg, (s.shm.thread thread).period⟩
  jump e.funct
  modify fun s => { s with calls := called :: s.calls }
  return called

/-- The function has run, and its time is taken: `end_time`, and the next entry unless the loop is
left. -/
def return_funct (funct_entry : Nat) (called : Called) : Prog σ (Int × Option Nat) := do
  modify fun s => { s with
    shm := { s.shm with data := code called.funct called.arg called.period s.shm.data } }
  let end_time ← call R.get_clocks
  let s ← get
  let funct := (s.shm.entry funct_entry).funct_ptr
  if funct = 0 then
    return (end_time, none)
  let runtime ← look fun m => m.cell (funct + FUNCT_RUNTIME)
  let maxtime := s.hal_shmem_base + (funct + FUNCT_MAXTIME)
  let increased := s.hal_shmem_base + (funct + FUNCT_MAXTIME_INCREASED)
  if runtime ≠ 0 then
    change fun m =>
      if m.data runtime > m.data maxtime then
        (m.setData maxtime (m.data runtime)).setData increased 1
      else m.setData increased 0
    let next ← look fun m => m.arena.links.next funct_entry
    return (end_time, some next)
  else
    let next ← look fun m => m.arena.links.next funct_entry
    return (end_time, some next)

/-- The time of the thread is taken. -/
def end_cycle (start_time end_time : Int) : Prog σ Unit := do
  let s ← get
  let runtime ← look fun m => m.cell (thread + THREAD_RUNTIME)
  store runtime (toInt32 (end_time - start_time))
  let maxtime := s.hal_shmem_base + (thread + THREAD_MAXTIME)
  change fun m =>
    if m.data runtime > m.data maxtime then m.setData maxtime (m.data runtime) else m

/-- The body of the loop is the call and the return. -/
theorem run_funct_parts (funct_entry : Nat) :
    run_funct R code thread funct_entry =
      call_funct thread funct_entry >>= return_funct R code funct_entry := by
  simp only [run_funct, call_funct, bind_assoc, pure_bind]
  funext s
  show (jump _ >>= _) s = (jump _ >>= _) s
  by_cases h₀ : (s.shm.entry funct_entry).funct = 0
  · simp only [jump, if_pos h₀]
    rfl
  · simp only [jump, if_neg h₀]
    rfl

/-- The next part of the cycle. -/
def part : Place → Prog σ Place
  | .idle => begin_cycle R thread
  | .before funct_entry start_time end_time =>
      if funct_entry = thread + THREAD_FUNCT_LIST then do
        end_cycle thread start_time end_time
        return .idle
      else do
        let called ← call_funct thread funct_entry
        return .within funct_entry start_time called
  | .within funct_entry start_time called => do
      let r ← return_funct R code funct_entry called
      return .before (r.2.getD (thread + THREAD_FUNCT_LIST)) start_time r.1

end

/-- The threads at work. -/
structure Crew (σ : Type) where
  hal : State σ
  place : Nat → Place

namespace Crew

/-- A thread goes on with its next part, or another program calls an operation. -/
inductive Act where
  | turn (thread : Nat) (code : Addr → Addr → Int → (Addr → Int) → (Addr → Int))
  | op (op : Op)

def step : Act → Crew σ → Option (Crew σ)
  | .turn t code, w =>
      match part R code t (w.place t) w.hal with
      | .error _ _ => none
      | .ok p s => some { hal := s, place := Function.update w.place t p }
  | .op op, w =>
      match op.run R w.hal with
      | .error _ _ => none
      | .ok _ s => some { w with hal := s }

variable {R} {s s' : State σ} {w w' : Crew σ} {L : Lists} {t : Nat}
  {code : Addr → Addr → Int → (Addr → Int) → (Addr → Int)}

theorem step_turn {p : Place} (h : part R code t (w.place t) w.hal = .ok p s') :
    step R (.turn t code) w = some { hal := s', place := Function.update w.place t p } := by
  simp only [step, h]

/-! ### A cycle that is left alone -/

/-- From one place to another, in parts of one thread. -/
def Alone (R : Rtapi σ) (code : Addr → Addr → Int → (Addr → Int) → (Addr → Int)) (t : Nat)
    (p : Place) (s : State σ) (p' : Place) (s' : State σ) : Prop :=
  ∃ n, ∀ place : Nat → Place, place t = p →
    acted (step R) (List.replicate n (.turn t code)) ⟨s, place⟩ =
      some ⟨s', Function.update place t p'⟩

theorem Alone.refl (p : Place) : Alone R code t p s p s :=
  ⟨0, fun place hp => by rw [← hp, Function.update_eq_self]; rfl⟩

theorem Alone.head {p p₁ p' : Place} {s₁ : State σ} (h : part R code t p s = .ok p₁ s₁)
    (h' : Alone R code t p₁ s₁ p' s') : Alone R code t p s p' s' := by
  obtain ⟨n, hn⟩ := h'
  refine ⟨n + 1, fun place hp => ?_⟩
  have hstep := step_turn (w := ⟨s, place⟩) (show part R code t (place t) s = _ by rw [hp]; exact h)
  rw [List.replicate_succ, acted, hstep, Option.bind_some]
  refine (hn _ (Function.update_self ..)).trans ?_
  rw [Function.update_idem]

/-- At the root the cycle ends. -/
theorem alone_end {start_time end_time : Int}
    (h : end_cycle t start_time end_time s = .ok () s') :
    Alone R code t (.before (t + THREAD_FUNCT_LIST) start_time end_time) s .idle s' := by
  refine .head ?_ (.refl _)
  rw [part, if_pos rfl]
  exact bind_eq_ok.mpr ⟨(), s', h, rfl⟩

/-- The loop. -/
theorem alone_run_functs {fuel e : Nat} {start_time end_time r : Int}
    (h : run_functs R code t fuel e end_time s = .ok r s') {s'' : State σ}
    (hend : end_cycle t start_time r s' = .ok () s'') :
    Alone R code t (.before e start_time end_time) s .idle s'' := by
  induction fuel generalizing e end_time s with
  | zero => cases h
  | succ fuel ih =>
      rw [run_functs_eq] at h
      by_cases he : e = t + THREAD_FUNCT_LIST
      · rw [if_pos he] at h
        cases h
        exact he ▸ alone_end hend
      rw [if_neg he, run_funct_parts] at h
      obtain ⟨a, s₁, hfunct, h⟩ := bind_eq_ok.mp h
      obtain ⟨c, s₀, hcall, hreturn⟩ := bind_eq_ok.mp hfunct
      have hwithin : part R code t (.before e start_time end_time) s =
          .ok (.within e start_time c) s₀ := by
        rw [part, if_neg he]
        exact bind_eq_ok.mpr ⟨c, s₀, hcall, rfl⟩
      have hbefore : part R code t (.within e start_time c) s₀ =
          .ok (.before (a.2.getD (t + THREAD_FUNCT_LIST)) start_time a.1) s₁ :=
        bind_eq_ok.mpr ⟨a, s₁, hreturn, rfl⟩
      refine (Alone.head hwithin) (.head hbefore ?_)
      rcases hnext : a.2 with _ | next
      · rw [hnext] at h
        cases h
        exact alone_end hend
      · rw [hnext] at h
        exact ih h

/-- Besides the calls only values in memory and RTAPI change. -/
def Ran (s s' : State σ) : Prop := ∃ cs data rt, s' = s.ran cs data rt

instance : Std.Refl (Ran (σ := σ)) := ⟨fun s => ⟨[], s.shm.data, s.rt, rfl⟩⟩

instance : IsTrans (State σ) Ran where
  trans := by
    rintro s _ _ ⟨cs, _, _, rfl⟩ ⟨cs', data, rt, rfl⟩
    refine ⟨cs' ++ cs, data, rt, ?_⟩
    simp only [State.ran, List.append_assoc]

theorem ran_call {α : Type} (f : σ → α × σ) : Along Ran (call f) :=
  .modifyGet fun s => ⟨[], s.shm.data, (f s.rt).2, rfl⟩

theorem ran_look {α : Type} (f : Segment → α) : Along Ran (look (σ := σ) f) :=
  .bind .get fun _ => .pure

theorem ran_change {f : Segment → Segment} (h : ∀ m, ∃ data, f m = { m with data := data }) :
    Along Ran (change (σ := σ) f) :=
  .modify fun s => by
    obtain ⟨data, hdata⟩ := h s.shm
    rw [hdata]
    exact ⟨[], data, s.rt, rfl⟩

theorem return_funct_ran (e : Nat) (c : Called) : Along Ran (return_funct R code e c) := by
  unfold return_funct
  refine .bind (.modify fun s => ⟨[], _, s.rt, rfl⟩) fun _ => .bind (ran_call _) fun _ => ?_
  refine .bind .get fun _ => .ite .pure (.bind (ran_look _) fun _ => .ite (.bind ?_ fun _ => ?_) ?_)
  · refine ran_change fun m => ?_
    split_ifs
    · exact ⟨_, rfl⟩
    · exact ⟨_, rfl⟩
  · exact .bind (ran_look _) fun _ => .pure
  · exact .bind (ran_look _) fun _ => .pure

/-- The call is made where there is code. -/
theorem call_funct_spec (s : State σ) (t e : Nat) : Wp (call_funct t e) s
    (fun c s' => c = call_of (s.shm.thread t) (s.shm.entry e) ∧
      s' = { s with calls := c :: s.calls }) fun _ _ => True := by
  unfold call_funct
  rw [wp_bind, wp_get, wp_bind]
  exact wp_jump_or (fun _ => ⟨rfl, rfl⟩) fun _ => trivial

theorem call_funct_ran (e : Nat) : Along Ran (call_funct (σ := σ) t e) :=
  .bind .get fun _ => .bind (.ite .throw .pure) fun _ =>
    .bind (.modify fun s => ⟨[_], s.shm.data, s.rt, rfl⟩) fun _ => .pure

theorem end_cycle_ran (start_time end_time : Int) :
    Along Ran (end_cycle (σ := σ) t start_time end_time) := by
  refine .bind .get fun _ => .bind (ran_look _) fun _ => .bind (.ite .throw ?_) fun _ => ?_
  · exact ran_change fun m => ⟨_, rfl⟩
  · refine ran_change fun m => ?_
    split_ifs
    · exact ⟨_, rfl⟩
    · exact ⟨m.data, rfl⟩

/-- No part of a cycle writes more. -/
theorem part_ran (p : Place) : Along Ran (part R code t p) := by
  cases p with
  | idle =>
      exact .bind .get fun _ => .ite (.bind (ran_look _) fun _ =>
        .ite (.bind (ran_call _) fun _ => .pure) .pure) .pure
  | before e start_time end_time =>
      exact .ite (.bind (end_cycle_ran _ _) fun _ => .pure)
        (.bind (call_funct_ran _) fun _ => .pure)
  | within e start_time c => exact .bind (return_funct_ran _ _) fun _ => .pure

theorem run_functs_ran (fuel e : Nat) (end_time : Int) :
    Along Ran (run_functs R code t fuel e end_time) := by
  induction fuel generalizing e end_time with
  | zero => exact .throw
  | succ fuel ih =>
      rw [run_functs_eq, run_funct_parts]
      refine .ite .pure (.bind (.bind (call_funct_ran _) fun _ => return_funct_ran _ _) fun a => ?_)
      rcases a.2 with _ | next
      · exact .pure
      · exact ih next a.1

/-- **A cycle that is left alone is `thread_task_cycle`.** -/
theorem cycle_alone (h : thread_task_cycle R code t s = .ok () s') :
    Alone R code t .idle s .idle s' := by
  unfold thread_task_cycle at h
  obtain ⟨_, _, ⟨⟩, h⟩ := bind_eq_ok.mp h
  have hbegin : ∀ p s₁, (if s.shm.threads_running > 0 then do
        let first ← look fun m => m.arena.links.next (t + THREAD_FUNCT_LIST)
        if first ≠ t + THREAD_FUNCT_LIST then
          let start_time ← call R.get_clocks
          return .before first start_time start_time
        else
          return .idle
      else
        return .idle : Prog σ Place) s = .ok p s₁ → part R code t .idle s = .ok p s₁ :=
    fun p s₁ hp => bind_eq_ok.mpr ⟨s, s, rfl, hp⟩
  by_cases hrun : s.shm.threads_running > 0
  · rw [if_pos hrun] at h hbegin
    obtain ⟨_, _, ⟨⟩, h⟩ := bind_eq_ok.mp h
    by_cases hfirst : s.shm.arena.links.next (t + THREAD_FUNCT_LIST) ≠ t + THREAD_FUNCT_LIST
    · rw [if_pos hfirst] at h
      obtain ⟨start_time, s₁, hclock, h⟩ := bind_eq_ok.mp h
      obtain ⟨end_time, s₂, hfuncts, h⟩ := bind_eq_ok.mp h
      have hbase : s₂.hal_shmem_base = s.hal_shmem_base :=
        by
          obtain ⟨_, _, _, rfl⟩ := (run_functs_ran ..).of_ok hfuncts
          cases hclock
          rfl
      have hend : end_cycle t start_time end_time s₂ = .ok () s' := by
        refine bind_eq_ok.mpr ⟨s₂, s₂, rfl, ?_⟩
        rw [hbase]
        exact h
      refine .head (hbegin _ s₁ (bind_eq_ok.mpr ⟨_, s, rfl, ?_⟩)) (alone_run_functs hfuncts hend)
      rw [if_pos hfirst]
      exact bind_eq_ok.mpr ⟨start_time, s₁, hclock, rfl⟩
    · rw [if_neg hfirst] at h
      cases h
      refine .head (hbegin _ s (bind_eq_ok.mpr ⟨_, s, rfl, ?_⟩)) (.refl _)
      rw [if_neg hfirst]
      rfl
  · rw [if_neg hrun] at h hbegin
    cases h
    exact .head (hbegin _ s rfl) (.refl _)

end Crew

/-! ### Operations beside the cycles -/

namespace Registry

variable {g g' : Registry} {op : Op} {t e : Nat} {r : Entry}

/-- A legal event of an operation that takes no thread away leaves the threads. -/
theorem off_apply {ev : Event} (ok : ev.Legal op g) (hop : ¬ op.Deletes)
    (ht : t ∈ g.threads.map Slot.off) : t ∈ (g.apply ev).threads.map Slot.off := by
  cases ev with
  | addThread t' th => exact List.mem_cons_of_mem _ ht
  | setThread t' th =>
      show t ∈ (g.threads.map _).map Slot.off
      rwa [off_map fun u => by split_ifs <;> rfl]
  | dropThread t' =>
      rcases ok with rfl | ⟨name, rfl⟩
      · exact absurd trivial hop
      · exact absurd trivial hop
  | dropFunct x =>
      show t ∈ (g.threads.map fun u =>
        { u with entries := u.entries.filter fun e => e.2.funct_ptr ≠ x }).map Slot.off
      exact (off_map (f := fun u =>
        { u with entries := u.entries.filter fun e => e.2.funct_ptr ≠ x }) fun _ => rfl).symm ▸ ht
  | schedule t' i e' r' =>
      have hoffs := reschedule_offs t' (fun es => es.take i ++ (e', r') :: es.drop i) g.threads
      exact hoffs.symm ▸ ht
  | unschedule t' e' f =>
      have hoffs := reschedule_offs t' (fun es => es.filter fun e => e.1 ≠ e') g.threads
      exact hoffs.symm ▸ ht
  | _ => exact ht

/-- A legal event of any other operation than the three leaves the entries. -/
theorem entry_apply {ev : Event} (ok : ev.Legal op g) (htidy : g.Tidy) (hop : ¬ op.Deletes)
    (hre : ¬ op.Reconfigures) (he : (e, r) ∈ g.entriesOf t) :
    (e, r) ∈ (g.apply ev).entriesOf t := by
  obtain ⟨u, hu, rfl, heu⟩ := mem_entriesOf.mp he
  have ht : u.off ∈ g.threads.map Slot.off := List.mem_map_of_mem hu
  cases ev with
  | addThread t' th => exact mem_entriesOf.mpr ⟨u, List.mem_cons_of_mem _ hu, rfl, heu⟩
  | setThread t' th =>
      refine mem_entriesOf.mpr ⟨_, List.mem_map_of_mem hu, ?_, ?_⟩
      · split_ifs <;> rfl
      · split_ifs <;> exact heu
  | dropThread t' =>
      rcases ok with rfl | ⟨name, rfl⟩
      · exact absurd trivial hop
      · exact absurd trivial hop
  | dropFunct x =>
      have hev : (Event.dropFunct x).Edits := trivial
      refine (mem_entriesOf_apply hev ht).mpr (.inl ⟨he, fun htakes => hre ?_⟩)
      obtain ⟨p, hp, hpe⟩ := List.mem_map.mp (htidy.linked u hu _ heu)
      obtain ⟨c, -, rfl⟩ := ok p hp (hpe.trans htakes)
      rfl
  | schedule t' i e' r' =>
      have hev : (Event.schedule t' i e' r').Edits := trivial
      exact (mem_entriesOf_apply hev ht).mpr (.inl ⟨he, id⟩)
  | unschedule t' e' f =>
      obtain ⟨_, _, rfl⟩ := ok
      exact absurd rfl hre
  | _ => exact he

theorem calls_pos {f : Nat} {es : List (Nat × Entry)} (h : ∃ e ∈ es, e.2.funct_ptr = f) :
    0 < calls f es := by
  obtain ⟨e, he, hf⟩ := h
  have hne : calls f es ≠ 0 := fun h0 => calls_eq_zero.mp h0 e he hf
  have := calls_nonneg f es
  omega

/-- A function in the schedules of two threads has two calls. -/
theorem two_calls {u v : Slot} {f : Nat} (hn : (g.threads.map Slot.off).Nodup) (hu : u ∈ g.threads)
    (hv : v ∈ g.threads) (huv : v.off ≠ u.off) (hfu : ∃ e ∈ u.entries, e.2.funct_ptr = f)
    (hfv : ∃ e ∈ v.entries, e.2.funct_ptr = f) : 2 ≤ calls f g.entries := by
  obtain ⟨ss₁, ss₂, hss, -⟩ := slot_split hn hu
  have hin : ∀ ss : List Slot, v ∈ ss → 0 < calls f (ss.flatMap Slot.entries) := fun ss hvs => by
    obtain ⟨e, he, hf⟩ := hfv
    exact calls_pos ⟨e, List.mem_flatMap.mpr ⟨v, hvs, he⟩, hf⟩
  have hcalls : calls f g.entries =
      calls f (ss₁.flatMap Slot.entries) + calls f u.entries +
        calls f (ss₂.flatMap Slot.entries) := by
    rw [entries, hss, List.flatMap_append, List.flatMap_cons, calls_append, calls_append, add_assoc]
  have hpos := calls_pos hfu
  have hnn₁ := calls_nonneg f (ss₁.flatMap Slot.entries)
  have hnn₂ := calls_nonneg f (ss₂.flatMap Slot.entries)
  rw [hss] at hv
  rcases List.mem_append.mp hv with hv | hv
  · have := hin ss₁ hv
    omega
  · rcases List.mem_cons.mp hv with rfl | hv
    · exact absurd rfl huv
    · have := hin ss₂ hv
      omega

end Registry

/-- **What an operation leaves to the cycles.** -/
theorem Op.leaves {R : Rtapi σ} {s s' : State σ} {L : Lists} {op : Op} (h : Inv s L)
    (htidy : (view s.shm L).Tidy) (hsane : op.Sane) (hrun : op.run R s = .ok () s') :
    (∃ L', Inv s' L' ∧ (view s'.shm L').Tidy) ∧ (¬ op.Deletes → ∀ t, s.shm.Listed .thread t →
      s'.shm.Listed .thread t ∧ ∀ e, s.shm.OnRing (t + THREAD_FUNCT_LIST) e →
        ¬ op.Removes s.shm t e →
          s'.shm.OnRing (t + THREAD_FUNCT_LIST) e ∧ s'.shm.entry e = s.shm.entry e) := by
  have hanswer := hrun
  rw [op.run_reply] at hanswer
  obtain ⟨r, _, hr, ⟨⟩⟩ := bind_eq_ok.mp hanswer
  obtain ⟨_, _, hstep, rfl, L', h', rfl⟩ := (op.tracks hsane s L h).of_ok hr
  have hgo := op.lawful (c := .of s L) htidy _ _ hstep
  refine ⟨⟨L', h', hgo.tidy htidy⟩, fun hop t ht => ?_⟩
  have hoff : t ∈ (view s.shm L).threads.map Slot.off := by
    rw [offs_view]
    exact h.good.shape.listed.mp ht
  have hoff' : t ∈ L'.act .thread := by
    rw [← offs_view s'.shm]
    exact (hgo.keeps (P := fun g => t ∈ g.threads.map Slot.off) htidy hoff
      fun g ev _ ok => Registry.off_apply ok hop).2
  refine ⟨h'.good.shape.listed.mpr hoff', fun e he hremoves => ?_⟩
  have hentry := (onRing_view h.good.shape (h.good.shape.listed.mp ht)).mp he
  by_cases hre : op.Reconfigures
  · -- the events of the call that was made
    obtain ⟨evs, L₁, hm, -, hevs, htakes⟩ := op.reconfigured h hre hrun
    have hkept := Registry.mem_entriesOf_kept hevs hoff hentry fun ev hev htk =>
      hremoves (htakes t e ev hev htk)
    rw [← hm.events] at hkept
    obtain ⟨ht₁, he₁, hrec⟩ := mem_entriesOf_view.mp hkept
    exact ⟨(hm.inv.good.shape.onRing (Shape.thread_root (.inl ht₁))).mpr he₁, hrec.symm⟩
  · have hkept := (hgo.keeps (P := fun g => (e, s.shm.entry e) ∈ g.entriesOf t) htidy hentry
      fun g ev hg ok => Registry.entry_apply ok hg hop hre).2
    obtain ⟨ht₁, he₁, hrec⟩ := mem_entriesOf_view.mp hkept
    exact ⟨(h'.good.shape.onRing (Shape.thread_root (.inl ht₁))).mpr he₁, hrec.symm⟩

/-! ### The threads and the operations -/

namespace Place

/-- The entry on which the cycle of a thread stands. -/
def entry (t : Nat) : Place → Option Nat
  | .idle => none
  | .before e _ _ => if e = t + THREAD_FUNCT_LIST then none else some e
  | .within e _ _ => some e

/-- The thread is there, and so are the entry of its cycle and what it called. -/
def Stands (m : Segment) (t : Nat) : Place → Prop
  | .idle => True
  | .before e _ _ => m.Listed .thread t ∧
      (e = t + THREAD_FUNCT_LIST ∨ m.OnRing (t + THREAD_FUNCT_LIST) e)
  | .within e _ c => m.Listed .thread t ∧ m.OnRing (t + THREAD_FUNCT_LIST) e ∧
      (m.entry e).funct = c.funct ∧ (m.entry e).arg = c.arg

/-- Values in memory do not matter. -/
theorem Stands.ran {s : State σ} {t : Nat} {p : Place} (h : p.Stands s.shm t) (cs : List Called)
    (data : Addr → Int) (rt : σ) : p.Stands (s.ran cs data rt).shm t := by
  cases p with
  | idle => trivial
  | before e start_time end_time => exact h
  | within e start_time c => exact h

end Place

namespace Crew

variable {R} {s s' : State σ} {w w' : Crew σ} {L : Lists} {t : Nat}
  {code : Addr → Addr → Int → (Addr → Int) → (Addr → Int)}

/-- From an entry of the ring, the next is one, or the root. -/
theorem next_stands (h : Shape s.shm.arena L) (ht : t ∈ L.act .thread) {e : Nat}
    (he : s.shm.OnRing (t + THREAD_FUNCT_LIST) e) :
    s.shm.arena.links.next e = t + THREAD_FUNCT_LIST ∨
      s.shm.OnRing (t + THREAD_FUNCT_LIST) (s.shm.arena.links.next e) := by
  have hroot : t + THREAD_FUNCT_LIST ∈ L.roots := Shape.thread_root (.inl ht)
  obtain ⟨xs, ys, hs⟩ := List.append_of_mem ((h.onRing hroot).mp he)
  rw [h.next_after hroot hs]
  rcases ys with _ | ⟨y, ys⟩
  · exact .inl rfl
  · exact .inr ((h.onRing hroot).mpr (by simp [hs]))

/-- **One part of a cycle.** -/
theorem part_stands (h : Inv s L) {p : Place} (hp : p.Stands s.shm t)
    (hidle : p = .idle → s.shm.Listed .thread t) {p' : Place}
    (hpart : part R code t p s = .ok p' s') : p'.Stands s.shm t := by
  have hshape := h.good.shape
  cases p with
  | idle =>
      have ht := hidle rfl
      refine Wp.of_ok (Q := fun p' _ => p'.Stands s.shm t) (E := fun _ _ => True) ?_ hpart
      unfold part begin_cycle
      rw [wp_bind, wp_get]
      refine .ite (fun _ => ?_) fun _ => trivial
      rw [wp_bind, wp_look]
      refine .ite (fun hne => ?_) fun _ => trivial
      rw [wp_bind, wp_call, wp_pure]
      refine ⟨ht, .inr ?_⟩
      have hroot : t + THREAD_FUNCT_LIST ∈ L.roots :=
        Shape.thread_root (.inl (hshape.listed.mp ht))
      rw [hshape.next_root hroot] at hne ⊢
      rw [hshape.onRing hroot]
      rcases hring : L.ring (t + THREAD_FUNCT_LIST) with _ | ⟨y, ys⟩
      · rw [hring] at hne
        exact absurd rfl hne
      · exact List.mem_cons_self
  | before e start_time end_time =>
      obtain ⟨ht, he⟩ := hp
      rw [part] at hpart
      split_ifs at hpart with hroot
      · obtain ⟨_, _, _, ⟨⟩⟩ := bind_eq_ok.mp hpart
        trivial
      · obtain ⟨c, s₁, hcall, ⟨⟩⟩ := bind_eq_ok.mp hpart
        obtain ⟨rfl, rfl⟩ := (call_funct_spec s t e).of_ok hcall
        exact ⟨ht, he.resolve_left hroot, rfl, rfl⟩
  | within e start_time c =>
      obtain ⟨ht, he, -, -⟩ := hp
      refine Wp.of_ok (Q := fun p' _ => p'.Stands s.shm t) (E := fun _ _ => True) ?_ hpart
      have hnext := next_stands hshape (hshape.listed.mp ht) he
      unfold part return_funct
      rw [wp_bind, wp_bind, wp_modify, wp_bind, wp_call, wp_bind, wp_get]
      refine .ite (fun _ => ⟨ht, .inl rfl⟩) fun _ => ?_
      rw [wp_bind, wp_look]
      refine .ite (fun _ => ?_) fun _ => ?_
      · rw [wp_bind, wp_change, wp_bind, wp_look]
        split_ifs
        · exact ⟨ht, hnext⟩
        · exact ⟨ht, hnext⟩
      · rw [wp_bind, wp_look]
        exact ⟨ht, hnext⟩

/-- Every thread between two cycles. -/
def atRest (s : State σ) : Crew σ := { hal := s, place := fun _ => .idle }

/-- A thread between two cycles is listed when it begins the next one, and an operation removes no
entry on which a cycle stands; it takes threads away only between the cycles. -/
def Spares (w : Crew σ) : Act → Prop
  | .turn t _ => w.place t = .idle → w.hal.shm.Listed .thread t
  | .op op => op.Sane ∧ (op.Deletes → ∀ t, w.place t = .idle) ∧
      ∀ t e, (w.place t).entry t = some e → ¬ op.Removes w.hal.shm t e

/-- What every step keeps. -/
structure Works (w : Crew σ) (L : Lists) : Prop where
  inv : Inv w.hal L
  tidy : (view w.hal.shm L).Tidy
  stands : ∀ t, (w.place t).Stands w.hal.shm t

/-- The function in which a thread is, and what it called. -/
def inside (w : Crew σ) (t : Nat) : Option (Nat × Called) :=
  match w.place t with
  | .within e _ c => some ((w.hal.shm.entry e).funct_ptr, c)
  | _ => none

/-- A function that runs is listed, and it is what was called; it runs once, unless it is
re-entrant. -/
structure Exclusive (w : Crew σ) : Prop where
  listed : ∀ t f c, w.inside t = some (f, c) → w.hal.shm.Listed .funct f ∧
    (w.hal.shm.funct f).funct = c.funct ∧ (w.hal.shm.funct f).arg = c.arg
  once : ∀ t t' f c c', t ≠ t' → w.inside t = some (f, c) → w.inside t' = some (f, c') →
    (w.hal.shm.funct f).reentrant ≠ 0

namespace Works

theorem turn {p : Place} (h : Works w L) (hidle : w.place t = .idle → w.hal.shm.Listed .thread t)
    (hpart : part R code t (w.place t) w.hal = .ok p s') :
    Works { hal := s', place := Function.update w.place t p } L := by
  have hstands := part_stands h.inv (h.stands t) hidle hpart
  obtain ⟨cs, data, rt, rfl⟩ := (part_ran _).of_ok hpart
  refine ⟨h.inv.ran cs data rt, h.tidy, fun u => ?_⟩
  show (Function.update w.place t p u).Stands _ u
  by_cases hu : u = t
  · subst hu
    rw [Function.update_self]
    exact hstands.ran cs data rt
  · rw [Function.update_of_ne hu]
    exact (h.stands u).ran cs data rt

theorem op {op : Op} (h : Works w L) (hsane : op.Sane) (hdel : op.Deletes → ∀ t, w.place t = .idle)
    (hspares : ∀ t e, (w.place t).entry t = some e → ¬ op.Removes w.hal.shm t e)
    (hrun : op.run R w.hal = .ok () s') : ∃ L', Works { w with hal := s' } L' := by
  obtain ⟨⟨L', hinv, htidy⟩, hleaves⟩ := op.leaves h.inv h.tidy hsane hrun
  refine ⟨L', hinv, htidy, fun t => ?_⟩
  have hstands := h.stands t
  have hspare := hspares t
  cases hp : w.place t with
  | idle => trivial
  | before e start_time end_time =>
      have hop : ¬ op.Deletes := fun hd => by simp [hdel hd t] at hp
      rw [hp] at hstands hspare
      obtain ⟨ht, he⟩ := hstands
      obtain ⟨ht', hentries⟩ := hleaves hop t ht
      refine ⟨ht', or_iff_not_imp_left.mpr fun hroot => ?_⟩
      exact (hentries e (he.resolve_left hroot) (hspare e (if_neg hroot))).1
  | within e start_time c =>
      have hop : ¬ op.Deletes := fun hd => by simp [hdel hd t] at hp
      rw [hp] at hstands hspare
      obtain ⟨ht, he, hfunct, harg⟩ := hstands
      obtain ⟨ht', hentries⟩ := hleaves hop t ht
      obtain ⟨he', hrec⟩ := hentries e he (hspare e rfl)
      exact ⟨ht', he', hrec ▸ hfunct, hrec ▸ harg⟩

/-- **One step.** -/
theorem step {a : Act} (h : Works w L) (ha : Spares w a) (hstep : Crew.step R a w = some w') :
    ∃ L', Works w' L' := by
  cases a with
  | turn t code =>
      simp only [Crew.step] at hstep
      cases hpart : part R code t (w.place t) w.hal with
      | error e s' => simp [hpart] at hstep
      | ok p s' =>
          rw [hpart] at hstep
          cases hstep
          exact ⟨L, h.turn ha hpart⟩
  | op op =>
      obtain ⟨hsane, hdel, hspares⟩ := ha
      simp only [Crew.step] at hstep
      cases hrun : op.run R w.hal with
      | error e s' => simp [hrun] at hstep
      | ok r s' =>
          rw [hrun] at hstep
          cases hstep
          exact h.op hsane hdel hspares hrun

/-- A thread is in a function of an entry of its schedule. -/
theorem inside {f : Nat} {c : Called} (h : Works w L) (hf : w.inside t = some (f, c)) :
    t ∈ L.act .thread ∧ ∃ e ∈ L.ring (t + THREAD_FUNCT_LIST), (w.hal.shm.entry e).funct_ptr = f ∧
      (w.hal.shm.entry e).funct = c.funct ∧ (w.hal.shm.entry e).arg = c.arg := by
  have hstands := h.stands t
  unfold Crew.inside at hf
  cases hp : w.place t with
  | idle => simp [hp] at hf
  | before e start_time end_time => simp [hp] at hf
  | within e start_time c' =>
      rw [hp] at hf hstands
      cases hf
      obtain ⟨ht, he, hfunct, harg⟩ := hstands
      have hlisted := h.inv.good.shape.listed.mp ht
      have hroot : t + THREAD_FUNCT_LIST ∈ L.roots := Shape.thread_root (.inl hlisted)
      exact ⟨hlisted, e, (h.inv.good.shape.onRing hroot).mp he, rfl, hfunct, harg⟩

/-- The function of an entry of a schedule is listed. -/
theorem funct {e : Nat} (h : Works w L) (ht : t ∈ L.act .thread)
    (he : e ∈ L.ring (t + THREAD_FUNCT_LIST)) :
    ∃ f, (w.hal.shm.entry e).funct_ptr = f ∧ (f, w.hal.shm.funct f) ∈ (view w.hal.shm L).functs ∧
      f ∈ L.act .funct ∧ (w.hal.shm.funct f).funct = (w.hal.shm.entry e).funct ∧
        (w.hal.shm.funct f).arg = (w.hal.shm.entry e).arg := by
  obtain ⟨p, hp, hpe, harg, hfunct⟩ := h.inv.good.sound.linked (e, w.hal.shm.entry e)
    (mem_entries.mpr ⟨t, ht, he, rfl⟩)
  obtain ⟨hf, hrec⟩ := mem_tab.mp hp
  refine ⟨p.1, hpe.symm, hrec ▸ hp, hf, ?_, ?_⟩
  · rw [← hrec]
    exact hfunct
  · rw [← hrec]
    exact harg

theorem excludes (h : Works w L) : Exclusive w where
  listed := by
    intro t f c hf
    obtain ⟨ht, e, he, rfl, hfunct, harg⟩ := h.inside hf
    obtain ⟨f, rfl, -, hl, hff, hfa⟩ := h.funct ht he
    exact ⟨h.inv.good.shape.listed.mpr hl, hff.trans hfunct, hfa.trans harg⟩
  once := by
    intro t t' f c c' hne hf hf' hre
    obtain ⟨ht, e, he, rfl, -, -⟩ := h.inside hf
    obtain ⟨ht', e', he', hptr, -, -⟩ := h.inside hf'
    obtain ⟨f, hfe, hp, -⟩ := h.funct ht he
    rw [hfe] at hptr hre
    -- the use count is the number of the entries, and at most one
    have hsound := h.inv.good.sound
    have htwo : 2 ≤ calls f (view w.hal.shm L).entries :=
      Registry.two_calls (u := slot w.hal.shm L t) (v := slot w.hal.shm L t') hsound.thread_keys
        (List.mem_map_of_mem ht) (List.mem_map_of_mem ht') (Ne.symm hne)
        ⟨(e, w.hal.shm.entry e), mem_tab.mpr ⟨he, rfl⟩, hfe⟩
        ⟨(e', w.hal.shm.entry e'), mem_tab.mpr ⟨he', rfl⟩, hptr⟩
    have hone : (w.hal.shm.funct f).users ≤ 1 := hsound.single _ hp hre
    have hcount : (w.hal.shm.funct f).users = calls f (view w.hal.shm L).entries :=
      hsound.counted _ hp
    omega

end Works

/-- **A function that is not re-entrant runs in one thread at a time.** -/
theorem exclusive (hs : Reachable R s) (h : Reached (step R) Spares (atRest s) w) :
    Exclusive w := by
  obtain ⟨s₀, s₁, hb, hr⟩ := hs
  obtain ⟨rs, hrun⟩ := hr.answered
  obtain ⟨L, hinv, htidy⟩ := hrun.tidy hb
  have hstart : Works (atRest s) L := ⟨hinv, htidy, fun _ => trivial⟩
  obtain ⟨L', hw⟩ := h.invariant (I := fun w => ∃ L, Works w L) ⟨L, hstart⟩
    fun w a w' ⟨L, h⟩ ha hstep => h.step ha hstep
  exact hw.excludes

/-! ### Two threads in one function -/

/-- A list of two. -/
theorem listed_two {m : Segment} {k : Kind} {x y : Nat}
    (hy : (m.arena.pool k).list_ptr = y ∧ y ≠ 0 ∧ (m.arena.pool k).next_ptr y = x)
    (hx : x ≠ 0 ∧ (m.arena.pool k).next_ptr x = 0) : m.Listed k y ∧ m.Listed k x := by
  have hlist : Chain (m.arena.pool k).next_ptr (m.arena.pool k).list_ptr [y, x] :=
    ⟨hy.1, hy.2.1, hy.2.2, hx.1, hx.2⟩
  exact ⟨⟨_, hlist, by simp⟩, ⟨_, hlist, by simp⟩⟩

/-- A second thread calls the re-entrant function of `scheduled`, and the threads run. -/
def duo : State Machine :=
  played (rtapi serving) [.hal_create_thread (lit ['u']) 1000000 0 50,
    .hal_add_funct_to_thread (some (lit ['f'])) (some (lit ['u'])) 1, .hal_start_threads] scheduled

theorem duo_reachable : Reachable (rtapi serving) duo :=
  have ⟨s₀, s₁, hb, hr⟩ := scheduled_reachable
  have hplay : Playable (rtapi serving) (fun _ _ => True)
      [.hal_create_thread (lit ['u']) 1000000 0 50,
        .hal_add_funct_to_thread (some (lit ['f'])) (some (lit ['u'])) 1, .hal_start_threads]
      scheduled :=
    ⟨trivial, trivial, by decide +kernel, trivial, trivial, by decide +kernel, trivial, trivial,
      by decide +kernel, trivial⟩
  ⟨s₀, s₁, hb, hplay.runs hr⟩

/-- The two threads. -/
def second : Nat := (duo.shm.arena.pool .thread).list_ptr

def first : Nat := (duo.shm.arena.pool .thread).next_ptr second

/-- After an action. -/
def after (a : Act) (w : Crew Machine) : Crew Machine := (step (rtapi serving) a w).getD w

theorem step_after {a : Act} {w : Crew Machine} (h : (step (rtapi serving) a w).isSome) :
    step (rtapi serving) a w = some (after a w) := by
  obtain ⟨w', hw⟩ := Option.isSome_iff_exists.mp h
  rw [after, hw]
  rfl

theorem after_turn {w₀ w : Crew Machine} (h : Reached (step (rtapi serving)) Spares w₀ w) (t : Nat)
    (ht : w.place t = .idle → w.hal.shm.Listed .thread t)
    (hs : (step (rtapi serving) (.turn t Traversal.still) w).isSome) :
    Reached (step (rtapi serving)) Spares w₀ (after (.turn t Traversal.still) w) :=
  h.next (a := .turn t Traversal.still) ht (step_after hs)

/-- The first thread is in the function, then the second one too. -/
def firstIn : Crew Machine :=
  after (.turn first Traversal.still) (after (.turn first Traversal.still) (atRest duo))

def bothIn : Crew Machine :=
  after (.turn second Traversal.still) (after (.turn second Traversal.still) firstIn)

theorem firstIn_reached : Reached (step (rtapi serving)) Spares (atRest duo) firstIn := by
  have hfirst : (atRest duo).hal.shm.Listed .thread first :=
    (listed_two (y := second) (by decide +kernel) (by decide +kernel)).2
  have hbegun := after_turn .start first (fun _ => hfirst) (by decide +kernel)
  exact after_turn hbegun first (fun h => absurd h (by decide +kernel)) (by decide +kernel)

theorem bothIn_reached : Reached (step (rtapi serving)) Spares (atRest duo) bothIn := by
  have hsecond : firstIn.hal.shm.Listed .thread second :=
    (listed_two (x := first) (by decide +kernel) (by decide +kernel)).1
  have hbegun := after_turn firstIn_reached second (fun _ => hsecond) (by decide +kernel)
  exact after_turn hbegun second (fun h => absurd h (by decide +kernel)) (by decide +kernel)

theorem exclusive_sample : Exclusive bothIn ∧ first ≠ second ∧ (bothIn.inside first).isSome ∧
    (bothIn.inside first).map Prod.fst = (bothIn.inside second).map Prod.fst :=
  ⟨exclusive duo_reachable bothIn_reached, by decide +kernel, by decide +kernel, by decide +kernel⟩

end Crew

end RTS.Hal

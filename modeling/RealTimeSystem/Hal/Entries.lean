import RealTimeSystem.Hal.Refine

/-!
# HAL — freeing function entries

What the loops over the rings leave: `free_entries` the entries of one ring that pass its test,
`free_users` the entries of all threads that call a function.  An entry that is freed moves to the
idle ring (`Lists.reclaim`), its record is cleared (`cleared`) and its function loses a user
(`discharge`).  The rest of the segment stays, so each result is the old segment with a new arena
and these two maps.
-/

namespace RTS.Hal

open RTS.Support

/-- The ring of `r` becomes `rest`, and the entries `es` are idle. -/
def Lists.reclaim (L : Lists) (r : Nat) (rest es : List Nat) : Lists :=
  (L.setRing r rest).setRing FUNCT_ENTRY_FREE (es ++ L.ring FUNCT_ENTRY_FREE)

/-- Each function loses its users among the entries `es`. -/
def discharge (es : List (Nat × Entry)) (F : Nat → Funct) : Nat → Funct := fun f =>
  { F f with users := (F f).users - calls f es }

/-- The records of `es` are cleared. -/
def cleared (es : List Nat) (E : Nat → Entry) : Nat → Entry := fun e => if e ∈ es then {} else E e

@[simp] theorem discharge_nil (F : Nat → Funct) : discharge [] F = F := by
  funext f
  simp [discharge]

theorem discharge_append (es es' : List (Nat × Entry)) (F : Nat → Funct) :
    discharge es' (discharge es F) = discharge (es ++ es') F := by
  funext f
  simp only [discharge, calls_append, Int.sub_sub]

/-- The users of a function that no entry of `es` calls. -/
theorem discharge_of_notCalled {es : List (Nat × Entry)} {F : Nat → Funct} {f : Nat}
    (h : ∀ e ∈ es, e.2.funct_ptr ≠ f) : discharge es F f = F f := by
  simp [discharge, calls_eq_zero.mpr h]

@[simp] theorem cleared_nil (E : Nat → Entry) : cleared [] E = E := by
  funext e
  simp [cleared]

theorem cleared_append (es es' : List Nat) (E : Nat → Entry) :
    cleared es' (cleared es E) = cleared (es ++ es') E := by
  funext e
  by_cases h : e ∈ es <;> by_cases h' : e ∈ es' <;> simp [cleared, h, h']

theorem cleared_of_notMem {es : List Nat} {E : Nat → Entry} {e : Nat} (h : e ∉ es) :
    cleared es E e = E e := if_neg h

section
variable {L : Lists} {r : Nat} {rest es : List Nat}

@[simp] theorem Lists.reclaim_act : (L.reclaim r rest es).act = L.act := rfl
@[simp] theorem Lists.reclaim_free : (L.reclaim r rest es).free = L.free := rfl
@[simp] theorem Lists.reclaim_hand : (L.reclaim r rest es).hand = L.hand := rfl
@[simp] theorem Lists.reclaim_roots : (L.reclaim r rest es).roots = L.roots := rfl

theorem Lists.reclaim_self (h : r ≠ FUNCT_ENTRY_FREE) : (L.reclaim r rest es).ring r = rest := by
  simp [Lists.reclaim, Lists.setRing, h]

theorem Lists.reclaim_other {q : Nat} (h : q ≠ r) (h' : q ≠ FUNCT_ENTRY_FREE) :
    (L.reclaim r rest es).ring q = L.ring q := by
  simp [Lists.reclaim, Lists.setRing, h, h']

theorem Lists.reclaim_reclaim (h : r ≠ FUNCT_ENTRY_FREE) {rest' es' : List Nat} :
    (L.reclaim r rest es).reclaim r rest' es' = L.reclaim r rest' (es' ++ es) := by
  have hr : (L.reclaim r rest es).ring = Function.update (Function.update L.ring r rest)
      FUNCT_ENTRY_FREE (es ++ L.ring FUNCT_ENTRY_FREE) := rfl
  simp only [Lists.reclaim, Lists.setRing] at hr ⊢
  congr 1
  funext q
  by_cases hq : q = FUNCT_ENTRY_FREE
  · subst hq; simp
  · by_cases hqr : q = r
    · subst hqr; simp [hq]
    · simp [hq, hqr]

theorem Lists.reclaim_none (h : L.ring r = rest) : L.reclaim r rest [] = L := by
  subst h
  simp [Lists.reclaim, Lists.setRing]

end

variable {m : Segment} {L : Lists} {r e : Nat} {xs ys : List Nat}

/-- One entry goes from the ring of `r` to the idle ones. -/
theorem free_entry (h : Shape m.arena L) (hr : r ∈ L.roots) (hr0 : r ≠ FUNCT_ENTRY_FREE)
    (hs : L.ring r = xs ++ e :: ys) (hf : (m.entry e).funct_ptr ≠ 0) :
    ∃ a, (m.onArena fun a => a.list_remove_entry e).free_funct_entry_struct e =
        { m with
          arena := a
          funct := discharge [(e, m.entry e)] m.funct
          entry := cleared [e] m.entry } ∧
      Grown m.arena a ∧ Shape a (L.reclaim r (xs ++ ys) [e]) := by
  have h₁ := h.remove_entry hr hs
  have hfree : FUNCT_ENTRY_FREE ∈ ((L.setRing r (xs ++ ys)).setLoose (e :: L.hand .entry)).roots :=
    Shape.free_root
  have hhand : ((L.setRing r (xs ++ ys)).setLoose (e :: L.hand .entry)).hand .entry =
      e :: L.hand .entry := by simp [Lists.setLoose]
  have hidle : ((L.setRing r (xs ++ ys)).setLoose (e :: L.hand .entry)).ring FUNCT_ENTRY_FREE =
      [] ++ L.ring FUNCT_ENTRY_FREE := by simp [Lists.setRing, Function.update_of_ne (Ne.symm hr0)]
  have h₂ := h₁.add_after hfree hhand hidle
  have hL : ((((L.setRing r (xs ++ ys)).setLoose (e :: L.hand .entry)).setRing FUNCT_ENTRY_FREE
      ([] ++ e :: L.ring FUNCT_ENTRY_FREE)).setLoose (L.hand .entry)) =
      L.reclaim r (xs ++ ys) [e] := by
    simp [Lists.reclaim, Lists.setRing, Lists.setLoose]
  rw [hL] at h₂
  refine ⟨(m.arena.list_remove_entry e).list_add_after e FUNCT_ENTRY_FREE, ?_, .of_eq rfl rfl, h₂⟩
  have hfun : Function.update m.funct (m.entry e).funct_ptr
      { m.funct (m.entry e).funct_ptr with users := (m.funct (m.entry e).funct_ptr).users - 1 } =
      discharge [(e, m.entry e)] m.funct := by
    funext f
    by_cases hfe : f = (m.entry e).funct_ptr
    · subst hfe; simp [discharge, calls_cons]
    · simp [discharge, calls_cons, hfe, Ne.symm hfe]
  have hent : Function.update m.entry e {} = cleared [e] m.entry := by
    funext y
    by_cases hy : y = e
    · subst hy; simp [cleared]
    · simp [cleared, hy]
  have hpos : (m.entry e).funct_ptr > 0 := Nat.pos_of_ne_zero hf
  simp only [Segment.free_funct_entry_struct, Segment.onArena, hpos, if_true, Segment.setFunct,
    Segment.setEntry, hfun, hent]

/-- **Freeing entries of one ring.**  From the entry behind `xs` on, those that pass the test. -/
theorem free_entries_eq (test : Entry → Bool) {fuel : Nat} (h : Shape m.arena L) (hr : r ∈ L.roots)
    (hr0 : r ≠ FUNCT_ENTRY_FREE) (hs : L.ring r = xs ++ ys)
    (hf : ∀ e ∈ ys, test (m.entry e) = true → (m.entry e).funct_ptr ≠ 0) (hfuel : ys.length < fuel) :
    ∃ a, Segment.free_entries r test fuel m (ys.headD r) =
        some { m with
          arena := a
          funct := discharge (tab m.entry (ys.filter fun e => test (m.entry e))) m.funct
          entry := cleared (ys.filter fun e => test (m.entry e)) m.entry } ∧
      Grown m.arena a ∧
      Shape a (L.reclaim r (xs ++ ys.filter fun e => !test (m.entry e))
        (ys.filter fun e => test (m.entry e)).reverse) := by
  induction ys generalizing m L xs fuel with
  | nil =>
      obtain ⟨n, rfl⟩ : ∃ n, fuel = n + 1 := ⟨fuel - 1, by simp at hfuel; omega⟩
      refine ⟨m.arena, by simp [Segment.free_entries, tab], .refl _, ?_⟩
      rw [List.filter_nil, List.filter_nil, List.reverse_nil, Lists.reclaim_none hs]
      exact h
  | cons y ys ih =>
      obtain ⟨n, rfl⟩ : ∃ n, fuel = n + 1 := ⟨fuel - 1, by simp at hfuel; omega⟩
      have hfuel' : ys.length < n := by simp at hfuel; omega
      have hnd := h.rings.nodup r hr
      rw [hs] at hnd
      have hyr : y ≠ r := fun e => (List.nodup_cons.mp hnd).1 (by simp [e])
      have hy : y ∉ ys := fun hm =>
        (List.nodup_cons.mp (List.nodup_append.mp (List.nodup_cons.mp hnd).2).2.1).1 hm
      have hnext : m.arena.links.next y = ys.headD r := h.next_after hr hs
      rw [List.headD_cons, Segment.free_entries, if_neg hyr]
      by_cases ht : test (m.entry y) = true
      · -- `y` is freed, and the loop goes on with its old successor
        obtain ⟨a₁, e₁, hg₁, h₁⟩ := free_entry h hr hr0 hs (hf y (by simp) ht)
        have hent : ∀ e ∈ ys, cleared [y] m.entry e = m.entry e := fun e he =>
          cleared_of_notMem (by simpa using ne_of_mem_of_not_mem he hy)
        rw [if_pos ht, hnext, e₁]
        obtain ⟨a₂, e₂, hg₂, h₂⟩ := ih (m := { m with
            arena := a₁, funct := discharge [(y, m.entry y)] m.funct
            entry := cleared [y] m.entry }) (L := L.reclaim r (xs ++ ys) [y]) h₁ hr
          (Lists.reclaim_self hr0) (fun e he => by simpa only [hent e he] using hf e (by simp [he]))
          hfuel'
        have hfil : (ys.filter fun e => test (cleared [y] m.entry e)) =
            ys.filter fun e => test (m.entry e) :=
          List.filter_congr fun e he => by rw [hent e he]
        have hfil' : (ys.filter fun e => !test (cleared [y] m.entry e)) =
            ys.filter fun e => !test (m.entry e) :=
          List.filter_congr fun e he => by rw [hent e he]
        have htab : tab (cleared [y] m.entry) (ys.filter fun e => test (m.entry e)) =
            tab m.entry (ys.filter fun e => test (m.entry e)) :=
          tab_congr fun e he => hent e (List.mem_of_mem_filter he)
        simp only [hfil, hfil', htab, discharge_append, cleared_append,
          Lists.reclaim_reclaim hr0] at e₂ h₂
        have hin : ((y :: ys).filter fun e => test (m.entry e)) =
            y :: ys.filter fun e => test (m.entry e) := List.filter_cons_of_pos ht
        have hout : ((y :: ys).filter fun e => !test (m.entry e)) =
            ys.filter fun e => !test (m.entry e) := List.filter_cons_of_neg (by simp [ht])
        rw [hin, hout, List.reverse_cons]
        exact ⟨a₂, e₂, hg₁.trans hg₂, h₂⟩
      · have ht' : test (m.entry y) = false := by simpa using ht
        rw [if_neg ht, hnext]
        have hs' : L.ring r = (xs ++ [y]) ++ ys := by simp [hs]
        obtain ⟨a₂, e₂, hg₂, h₂⟩ := ih h hr hs' (fun e he => hf e (by simp [he])) hfuel'
        have hin : ((y :: ys).filter fun e => test (m.entry e)) =
            ys.filter fun e => test (m.entry e) := List.filter_cons_of_neg ht
        have hout : ((y :: ys).filter fun e => !test (m.entry e)) =
            y :: ys.filter fun e => !test (m.entry e) := List.filter_cons_of_pos (by simp [ht'])
        rw [hin, hout, List.append_cons]
        exact ⟨a₂, e₂, hg₂, h₂⟩

/-! ### All threads -/

/-- `m'` is `m` without the entries that call `x` on the rings of the threads `ts`. -/
structure Purged (x : Nat) (ts : List Nat) (m : Segment) (L : Lists) (m' : Segment) (L' : Lists) :
    Prop where
  eq : m' = { m with arena := m'.arena, funct := m'.funct, entry := m'.entry }
  grown : Grown m.arena m'.arena
  shape : Shape m'.arena L'
  act : L'.act = L.act
  hand : L'.hand = L.hand
  ring : ∀ t ∈ ts, L'.ring (t + THREAD_FUNCT_LIST) =
    (L.ring (t + THREAD_FUNCT_LIST)).filter fun e => (m.entry e).funct_ptr ≠ x
  rest : ∀ t ∈ L.act .thread, t ∉ ts →
    L'.ring (t + THREAD_FUNCT_LIST) = L.ring (t + THREAD_FUNCT_LIST)
  funct : ∀ f, f ≠ x → m'.funct f = m.funct f
  entry : ∀ e, (∀ t ∈ ts, e ∈ L.ring (t + THREAD_FUNCT_LIST) → (m.entry e).funct_ptr ≠ x) →
    m'.entry e = m.entry e

/-- A thread that is listed has a root that is not the idle one. -/
theorem Shape.root_ne_idle {a : Arena} {t : Nat} (h : Shape a L)
    (ht : t ∈ L.act .thread ∨ t ∈ L.hand .thread) : t + THREAD_FUNCT_LIST ≠ FUNCT_ENTRY_FREE :=
  h.mem.root_ne_free (h.carved_thread ht)

theorem Purged.nil {x : Nat} (h : Shape m.arena L) : Purged x [] m L m L where
  eq := rfl
  grown := .refl _
  shape := h
  act := rfl
  hand := rfl
  ring _ ht := absurd ht List.not_mem_nil
  rest _ _ _ := rfl
  funct _ _ := rfl
  entry _ _ := rfl

/-- The sweep over one ring. -/
theorem Purged.one {x t : Nat} (h : Shape m.arena L) (ht : t ∈ L.act .thread) (hx : x ≠ 0) :
    ∃ m' L', Segment.free_entries (t + THREAD_FUNCT_LIST) (fun e => e.funct_ptr = x) FUEL m
        (m.arena.links.next (t + THREAD_FUNCT_LIST)) = some m' ∧ Purged x [t] m L m' L' := by
  set r := t + THREAD_FUNCT_LIST with hr
  have hroot : r ∈ L.roots := Shape.thread_root (.inl ht)
  have hr0 : r ≠ FUNCT_ENTRY_FREE := h.root_ne_idle (.inl ht)
  -- only entries that call `x` are freed, so what the others call does not matter
  obtain ⟨a, he, hg, hs⟩ := free_entries_eq (m := m) (fun e => e.funct_ptr = x)
    h hroot hr0 (List.nil_append _).symm (fun e _ ht => by simp at ht; omega) (h.ring_short hroot)
  rw [h.next_root hroot, he]
  refine ⟨_, _, rfl,
    { eq := rfl
      grown := hg
      shape := hs
      act := rfl
      hand := rfl
      ring := fun t' ht' => ?_
      rest := fun t' ht' hn => ?_
      funct := fun f hf => discharge_of_notCalled fun e he => ?_
      entry := fun e he => cleared_of_notMem fun hm => ?_ }⟩
  · obtain rfl := List.mem_singleton.mp ht'
    rw [← hr, Lists.reclaim_self hr0, List.nil_append]
    exact List.filter_congr fun e _ => by simp
  · refine Lists.reclaim_other (fun e => hn (List.mem_singleton.mpr ?_)) (h.root_ne_idle (.inl ht'))
    exact Blocks.root_ne e
  · obtain ⟨he₁, he₂⟩ := mem_tab.mp he
    rw [he₂]
    have := (List.mem_filter.mp he₁).2
    simp only [decide_eq_true_eq] at this
    exact fun e => hf (e.symm.trans this)
  · obtain ⟨h₁, h₂⟩ := List.mem_filter.mp hm
    exact he t (by simp) h₁ (by simpa using h₂)

theorem Purged.cons {x t : Nat} {ts : List Nat} {m' m'' : Segment} {L' L'' : Lists}
    (h : Shape m.arena L) (hts : ∀ t' ∈ t :: ts, t' ∈ L.act .thread) (hnd : (t :: ts).Nodup)
    (h₁ : Purged x [t] m L m' L') (h₂ : Purged x ts m' L' m'' L'') :
    Purged x (t :: ts) m L m'' L'' := by
  have hne : t ∉ ts := (List.nodup_cons.mp hnd).1
  refine
    { eq := by rw [h₂.eq, h₁.eq]
      grown := h₁.grown.trans h₂.grown
      shape := h₂.shape
      act := h₂.act.trans h₁.act
      hand := h₂.hand.trans h₁.hand
      ring := fun t' ht' => ?_
      rest := fun t' ht' hn => ?_
      funct := fun f hf => (h₂.funct f hf).trans (h₁.funct f hf)
      entry := fun e he => ?_ }
  · have ht := hts t' ht'
    rcases List.mem_cons.mp ht' with rfl | ht'
    · rw [h₂.rest t' (by rwa [h₁.act]) hne, h₁.ring t' (by simp)]
    · have htt : t' ≠ t := ne_of_mem_of_not_mem ht' hne
      rw [h₂.ring t' ht', h₁.rest t' ht (by simpa using htt)]
      refine List.filter_congr fun e he => ?_
      -- an entry of another ring was not freed
      rw [h₁.entry e fun t₁ ht₁ he₁ => ?_]
      obtain rfl := List.mem_singleton.mp ht₁
      have hap := h.rings.apart _ (Shape.thread_root (.inl ht)) _
        (Shape.thread_root (.inl (hts t₁ (by simp)))) fun e => htt (Blocks.root_ne e)
      exact absurd (List.mem_cons_of_mem _ he₁) (hap (List.mem_cons_of_mem _ he))
  · rw [h₂.rest t' (by rwa [h₁.act]) fun hm => hn (by simp [hm]),
      h₁.rest t' ht' (by simpa using fun e => hn (by simp [e]))]
  · have h' := h₁.entry e fun t₁ ht₁ => he t₁ (by simp [List.mem_singleton.mp ht₁])
    refine (h₂.entry e fun t' ht' hm => ?_).trans h'
    rw [h₁.rest t' (hts t' (by simp [ht'])) (by simpa using ne_of_mem_of_not_mem ht' hne)] at hm
    rw [h']
    exact he t' (by simp [ht']) hm

/-- **Freeing the entries of a function.**  No thread calls it any more. -/
theorem free_users_purged {x : Nat} (hx : x ≠ 0) {ts us : List Nat} {fuel : Nat}
    (h : Shape m.arena L) (hs : L.act .thread = us ++ ts) (hfuel : ts.length < fuel) :
    ∃ m' L', Segment.free_users (fun e => e.funct_ptr = x) fuel m (ts.headD 0) = some m' ∧
      Purged x ts m L m' L' := by
  induction ts generalizing m L us fuel with
  | nil =>
      obtain ⟨n, rfl⟩ : ∃ n, fuel = n + 1 := ⟨fuel - 1, by simp at hfuel; omega⟩
      exact ⟨m, L, by simp [Segment.free_users], .nil h⟩
  | cons t ts ih =>
      obtain ⟨n, rfl⟩ : ∃ n, fuel = n + 1 := ⟨fuel - 1, by simp at hfuel; omega⟩
      have hmem : ∀ t' ∈ t :: ts, t' ∈ L.act .thread := fun t' ht' => by rw [hs]; simp at ht' ⊢; tauto
      have ht := hmem t (by simp)
      obtain ⟨m₁, L₁, e₁, h₁⟩ := Purged.one h ht hx
      have hs₁ : L₁.act .thread = (us ++ [t]) ++ ts := by rw [h₁.act, hs]; simp
      have hnext : (m₁.arena.pool .thread).next_ptr t = ts.headD 0 := by
        have hu := (h₁.shape.rep .thread).used
        rw [hs₁] at hu
        have := Pool.Rep.deref_of hu
        rwa [Link.of_append_singleton] at this
      obtain ⟨m₂, L₂, e₂, h₂⟩ := ih h₁.shape hs₁ (by simp at hfuel; omega)
      refine ⟨m₂, L₂, ?_, .cons h hmem ?_ h₁ h₂⟩
      · rw [List.headD_cons, Segment.free_users, if_neg (h.act_ne_zero ht)]
        dsimp only
        rw [e₁, Option.bind_some, hnext]
        exact e₂
      · have hu := (h.rep .thread).used.nodup
        rw [hs] at hu
        exact (List.nodup_append.mp hu).2.1

/-- When no thread calls `x` there is nothing to free. -/
theorem Purged.none {x : Nat} (h : Shape m.arena L)
    (hno : ∀ t ∈ L.act .thread, ∀ e ∈ L.ring (t + THREAD_FUNCT_LIST), (m.entry e).funct_ptr ≠ x) :
    Purged x (L.act .thread) m L m L :=
  { Purged.nil h with
    ring := fun t ht =>
      (List.filter_eq_self.mpr fun e he => by simpa using hno t ht e he).symm
    rest := fun _ _ _ => rfl
    entry := fun _ _ => rfl }

/-! ### Functions -/

theorem filter_tab {α : Type} {f : Nat → α} {xs : List Nat} {p : Nat × α → Bool} :
    (tab f xs).filter p = tab f (xs.filter fun x => p (x, f x)) := by
  simp [tab, List.filter_map, Function.comp_def]

theorem mem_entries {e : Nat × Entry} :
    e ∈ (view m L).entries ↔ ∃ t ∈ L.act .thread, e.1 ∈ L.ring (t + THREAD_FUNCT_LIST) ∧
      e.2 = m.entry e.1 := by
  simp only [Registry.entries, view, List.mem_flatMap, List.mem_map]
  constructor
  · rintro ⟨_, ⟨t, ht, rfl⟩, he⟩
    exact ⟨t, ht, mem_tab.mp he⟩
  · rintro ⟨t, ht, he⟩
    exact ⟨_, ⟨t, ht, rfl⟩, mem_tab.mpr he⟩

/-- The table without the structure between `xs` and `ys`. -/
theorem tab_drop {α : Type} {f f' : Nat → α} {x : Nat} (hx : x ∉ xs ++ ys)
    (hf : ∀ z ∈ xs ++ ys, f' z = f z) :
    tab f' (xs ++ ys) = (tab f (xs ++ x :: ys)).filter fun p => p.1 ≠ x := by
  have hkeep : ∀ zs ⊆ xs ++ ys, zs.filter (fun z => z ≠ x) = zs := fun zs hzs =>
    List.filter_eq_self.mpr fun z hz => by simpa using ne_of_mem_of_not_mem (hzs hz) hx
  have hself : (xs ++ x :: ys).filter (fun z => z ≠ x) = xs ++ ys := by
    rw [List.filter_append, List.filter_cons_of_neg (by simp), hkeep xs (by simp),
      hkeep ys (by simp)]
  rw [filter_tab, tab_congr hf, hself]

theorem notMem_of_split {a : Arena} {k : Kind} {x : Nat} (h : Shape a L)
    (hs : L.act k = xs ++ x :: ys) : x ∉ xs ++ ys := by
  have hnd := (h.rep k).used.nodup
  rw [hs] at hnd
  exact (List.nodup_cons.mp (List.perm_middle.nodup_iff.mp hnd)).1

/-- What the operations on the lists of one kind leave as it was. -/
structure Aside (k : Kind) (m : Segment) (L : Lists) (m' : Segment) (L' : Lists) : Prop where
  grown : Grown m.arena m'.arena
  act : ∀ k', k' ≠ k → L'.act k' = L.act k'
  hand : L'.hand = L.hand
  comp : m'.comp = m.comp
  thread : m'.thread = m.thread
  mutex : m'.mutex = m.mutex
  lock : m'.lock = m.lock
  state : m'.state = m.state

/-- **A function is dropped.**  It leaves its list, and every thread loses its entries. -/
theorem drop_funct {x : Nat} (h : Shape m.arena L) (hp : Plain m) (hh : L.hand .funct = [])
    (hs : L.act .funct = xs ++ x :: ys) (hu : (m.funct x).users = calls x (view m L).entries) :
    ∃ m' L', (m.unlink .funct (Link.of xs) x).free_funct_struct x = some m' ∧
      Shape m'.arena L' ∧ Plain m' ∧ L'.act .funct = xs ++ ys ∧ Aside .funct m L m' L' ∧
      (∀ z, z ≠ x → m'.funct z = m.funct z) ∧ m'.param = m.param ∧
      view m' L' = (view m L).apply (.dropFunct x) := by
  have hx0 : x ≠ 0 := h.act_ne_zero (k := .funct) (by simp [hs])
  set m₁ := m.unlink .funct (Link.of xs) x with hm₁
  set L₁ := L.pull .funct (xs ++ ys) x with hL₁
  have h₁ : Shape m₁.arena L₁ := h.pull (by decide) hs
  have hthreads : L₁.act .thread = L.act .thread := by simp [hL₁, Lists.pull]
  have hhand : L₁.hand .funct = [x] := by simp [hL₁, Lists.pull, hh]
  -- the sweep runs when the function has users; otherwise there is nothing to sweep
  have hpurge : ∃ m₂ L₂, (if (m₁.funct x).users > 0 then
        Segment.free_users (fun e => e.funct_ptr = x) FUEL m₁ (m₁.arena.pool .thread).list_ptr
      else some m₁) = some m₂ ∧ Purged x (L₁.act .thread) m₁ L₁ m₂ L₂ := by
    by_cases hpos : (m₁.funct x).users > 0
    · rw [if_pos hpos, (h₁.rep .thread).used.head]
      exact free_users_purged hx0 h₁ (List.nil_append _).symm (h₁.short (by decide))
    · rw [if_neg hpos]
      refine ⟨m₁, L₁, rfl, .none h₁ fun t ht e he hex => ?_⟩
      have h0 : calls x (view m L).entries = 0 := by
        have := calls_nonneg x (view m L).entries
        have : (m.funct x).users ≤ 0 := Int.not_lt.mp hpos
        omega
      exact calls_eq_zero.mp h0 (e, m.entry e) (mem_entries.mpr ⟨t, hthreads ▸ ht, he, rfl⟩) hex
  obtain ⟨m₂, L₂, e₂, h₂⟩ := hpurge
  have hhand₂ : L₂.hand .funct = [x] := by rw [h₂.hand, hhand]
  have h₃ := h₂.shape.drop (k := .funct) (by decide) (by decide) hhand₂
  have hcomp : m₂.comp = m.comp := by rw [h₂.eq]; rfl
  have hpin : m₂.pin = m.pin := by rw [h₂.eq]; rfl
  have hparam : m₂.param = m.param := by rw [h₂.eq]; rfl
  have hthread : m₂.thread = m.thread := by rw [h₂.eq]; rfl
  have hact : ∀ k', L₂.act k' = if k' = .funct then xs ++ ys else L.act k' := fun k' => by
    rw [h₂.act, hL₁]
    by_cases hk : k' = .funct
    · subst hk; simp [Lists.pull]
    · simp [Lists.pull, hk]
  refine ⟨((m₂.setFunct x {}).setCell (x + FUNCT_RUNTIME) 0).pushFree .funct x,
    L₂.drop .funct x, ?_, h₃, ?_, by simp [hact], ?_, fun z hz => ?_, hparam, ?_⟩
  · rw [Segment.free_funct_struct, e₂, Option.map_some]
  · intro y
    exact ⟨(congrFun hpin y ▸ (hp y).1 : (m₂.pin y).oldname = 0),
      (congrFun hparam y ▸ (hp y).2 : (m₂.param y).oldname = 0)⟩
  · have hg₁ : Grown m.arena m₁.arena := .of_eq rfl rfl
    refine ⟨(hg₁.trans h₂.grown).trans (.of_eq rfl rfl), fun k' hk' => by simp [hact, hk'], ?_, hcomp,
      hthread, by rw [h₂.eq]; rfl, by rw [h₂.eq]; rfl, by rw [h₂.eq]; rfl⟩
    simp [Lists.drop, h₂.hand, hL₁, Lists.pull]
  · show Function.update m₂.funct x {} z = _
    rw [Function.update_of_ne hz, h₂.funct z hz]
    rfl
  · have hfunct : ∀ z ∈ xs ++ ys, Function.update m₂.funct x {} z = m.funct z := fun z hz => by
      have hzx : z ≠ x := ne_of_mem_of_not_mem hz (notMem_of_split h hs)
      rw [Function.update_of_ne hzx, h₂.funct z hzx]
      rfl
    have hslot : ∀ t ∈ L.act .thread, tab m₂.entry (L₂.ring (t + THREAD_FUNCT_LIST)) =
        (tab m.entry (L.ring (t + THREAD_FUNCT_LIST))).filter fun e => e.2.funct_ptr ≠ x := by
      intro t ht
      rw [filter_tab, h₂.ring t (hthreads ▸ ht)]
      refine tab_congr fun e he => h₂.entry e fun t' ht' he' hex => ?_
      have := (List.mem_filter.mp he).2
      exact absurd hex (by simpa using this)
    unfold view Registry.apply
    dsimp only [Lists.drop_act]
    simp only [hact, reduceCtorEq, if_false, if_true, List.map_map]
    congr 1
    · exact congrArg (tab · _) hcomp
    · exact congrArg (tab · _) hpin
    · exact congrArg (tab · _) hparam
    · rw [hs]
      exact tab_drop (notMem_of_split h hs) hfunct
    · refine List.map_congr_left fun t ht => ?_
      exact congrArg₂ (Slot.mk t) (congrFun hthread t) (hslot t ht)

end RTS.Hal

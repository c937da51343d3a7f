import RealTimeSystem.Hal.Shape
import RealTimeSystem.Support.Both

/-!
# HAL — two arenas with the same structures

Two arenas are `Twin` when they have the same structures at the same places, linked in the same way.
Of the links in memory that no structure was made from nothing is said.  The allocator and the lists
of one arena then give what those of the other give, and leave the two `Twin`.
-/

namespace RTS.Hal

open RTS.Support

/-! ### Arenas -/

namespace Arena

/-- The roots of the rings, one for each thread that was ever made. -/
def ringRoots (a : Arena) : List Nat :=
  FUNCT_ENTRY_FREE :: (a.carved .thread).map (· + THREAD_FUNCT_LIST)

/-- `x` is a root or a function entry. -/
def Linked (a : Arena) (x : Nat) : Prop := x ∈ a.ringRoots ∨ x ∈ a.carved .entry

theorem mem_ringRoots {a : Arena} {r : Nat} :
    r ∈ a.ringRoots ↔ r = FUNCT_ENTRY_FREE ∨ ∃ t ∈ a.carved .thread, r = t + THREAD_FUNCT_LIST := by
  simp only [ringRoots, List.mem_cons, List.mem_map, eq_comm]

/-- The kinds of structures that are on lists of their own. -/
def Queued (k : Kind) : Prop := k ≠ .oldname ∧ k ≠ .entry

/-- The two arenas have the same structures, linked in the same way; `loose` are the function
entries on no ring. -/
structure Twin (ring : Nat → List Nat) (loose : List Nat) (a a' : Arena) : Prop where
  mem : Blocks a
  brk : a'.brk = a.brk
  carved : a'.carved = a.carved
  pool : ∀ k, Queued k → (a.pool k).Agree (a.carved k) (a'.pool k)
  links : a.links.Agree a.Linked a'.links
  rings : Rings a.links a.ringRoots ring loose
  wheel : ∀ r ∈ a.ringRoots, ∀ e ∈ ring r, e ∈ a.carved .entry
  loose_mem : ∀ e ∈ loose, e ∈ a.carved .entry

namespace Twin

variable {ring : Nat → List Nat} {loose : List Nat} {a a' : Arena} {k : Kind} {e r x : Nat}

/-- What is on a ring or its root is linked. -/
theorem ring_linked (h : a.Twin ring loose a') (hr : r ∈ a.ringRoots) (hx : x ∈ r :: ring r) :
    a.Linked x := by
  rcases List.mem_cons.mp hx with rfl | hx
  · exact .inl hr
  · exact .inr (h.wheel r hr x hx)

theorem thread_root {t : Nat} (ht : t ∈ a.carved .thread) : t + THREAD_FUNCT_LIST ∈ a.ringRoots :=
  mem_ringRoots.mpr (.inr ⟨t, ht, rfl⟩)

theorem free_root : FUNCT_ENTRY_FREE ∈ a.ringRoots := mem_ringRoots.mpr (.inl rfl)

/-- A root is no function entry. -/
theorem root_ne_entry (h : Blocks a) (hr : r ∈ a.ringRoots) (he : e ∈ a.carved .entry) : r ≠ e := by
  rcases mem_ringRoots.mp hr with rfl | ⟨t, ht, rfl⟩
  · exact (h.free_ne_entry he).symm
  · exact h.root_ne_entry ht he

/-- One step on a ring stays on it. -/
theorem next_in (h : a.Twin ring loose a') (hr : r ∈ a.ringRoots) (hx : x ∈ r :: ring r) :
    a.links.next x ∈ r :: ring r := by
  have hring := h.rings.closed r hr
  rcases List.mem_cons.mp hx with rfl | hx
  · rw [hring.next_first]
    cases ring x <;> simp
  · obtain ⟨xs, ys, hs⟩ := List.append_of_mem hx
    rw [hs] at hring ⊢
    rw [hring.next_mem]
    cases ys <;> simp

theorem prev_in (h : a.Twin ring loose a') (hr : r ∈ a.ringRoots) (hx : x ∈ r :: ring r) :
    a.links.prev x ∈ r :: ring r := by
  have hring := (h.rings.closed r hr).reverse
  rcases List.mem_cons.mp hx with rfl | hx
  · rw [show a.links.prev x = (ring x).reverse.headD x from hring.next_first]
    cases hrev : (ring x).reverse with
    | nil => simp
    | cons y ys =>
        refine List.mem_cons_of_mem _ (List.mem_reverse.mp ?_)
        rw [hrev]
        exact List.mem_cons_self
  · obtain ⟨xs, ys, hs⟩ := List.append_of_mem (List.mem_reverse.mpr hx)
    rw [hs] at hring
    rw [show a.links.prev x = ys.headD r from hring.next_mem]
    cases ys with
    | nil => simp
    | cons y ys =>
        refine List.mem_cons_of_mem _ (List.mem_reverse.mp ?_)
        rw [hs]
        simp

theorem setPool (h : a.Twin ring loose a') {p p' : Pool}
    (hp : Queued k → p.Agree (a.carved k) p') :
    (a.setPool k p).Twin ring loose (a'.setPool k p') where
  mem := ⟨h.mem.span, h.mem.nodup, h.mem.inside, h.mem.apart⟩
  brk := h.brk
  carved := h.carved
  pool k' hk' := by
    by_cases e : k' = k
    · subst e
      simpa [Arena.setPool] using hp hk'
    · simpa [Arena.setPool, e] using h.pool k' hk'
  links := h.links
  rings := h.rings
  wheel := h.wheel
  loose_mem := h.loose_mem

/-- A block from the bottom. -/
theorem grow (h : a.Twin ring loose a') {size : Int} (h₀ : 0 ≤ size) :
    ({ a with brk := (shmalloc_up a.brk size).2 } : Arena).Twin ring loose
      { a' with brk := (shmalloc_up a'.brk size).2 } where
  mem :=
    { span := serve_span (r := .up size) h.mem.span h₀
      nodup := h.mem.nodup
      inside := fun k x hx => by
        have htop : (shmalloc_up a.brk size).2.shmem_top = a.brk.shmem_top := by
          unfold shmalloc_up
          simp only
          split <;> rfl
        rw [htop]
        exact h.mem.inside k x hx
      apart := h.mem.apart }
  brk := by rw [h.brk]
  carved := h.carved
  pool := h.pool
  links := h.links
  rings := h.rings
  wheel := h.wheel
  loose_mem := h.loose_mem

/-! #### Function entries -/

theorem remove_entry (h : a.Twin ring loose a') (hr : r ∈ a.ringRoots) (he : e ∈ ring r) :
    ∃ ring', (a.list_remove_entry e).Twin ring' (e :: loose) (a'.list_remove_entry e) ∧
      ∀ q, ∀ x ∈ q :: ring q, x ≠ e → x ∈ q :: ring' q := by
  obtain ⟨xs, ys, hs⟩ := List.append_of_mem he
  have hc := h.wheel r hr e he
  refine ⟨Function.update ring r (xs ++ ys),
    { mem := ⟨h.mem.span, h.mem.nodup, h.mem.inside, h.mem.apart⟩
      brk := h.brk
      carved := h.carved
      pool := h.pool
      links := h.links.remove (.inr hc)
      rings := h.rings.remove hr hs
      wheel := fun q hq y hy => ?_
      loose_mem := fun y hy => (List.mem_cons.mp hy).elim (fun e' => e' ▸ hc) (h.loose_mem y) },
    fun q x hx hne => ?_⟩
  · by_cases e' : q = r
    · subst e'
      rw [Function.update_self] at hy
      refine h.wheel q hq y ?_
      rw [hs]
      simp only [List.mem_append, List.mem_cons] at hy ⊢
      tauto
    · rw [Function.update_of_ne e'] at hy
      exact h.wheel q hq y hy
  · by_cases e' : q = r
    · subst e'
      rw [Function.update_self]
      rw [hs] at hx
      simp only [List.mem_append, List.mem_cons] at hx ⊢
      tauto
    · rwa [Function.update_of_ne e']

theorem add_after (h : a.Twin ring (e :: loose) a') (hr : r ∈ a.ringRoots) (hx : x ∈ r :: ring r) :
    ∃ ring', (a.list_add_after e x).Twin ring' loose (a'.list_add_after e x) ∧
      ∀ q, ∀ y ∈ q :: ring q, y ∈ q :: ring' q := by
  have hc := h.loose_mem e List.mem_cons_self
  -- the entry goes behind `xs`
  obtain ⟨xs, ys, hs, hlast⟩ : ∃ xs ys, ring r = xs ++ ys ∧ xs.getLastD r = x := by
    rcases List.mem_cons.mp hx with rfl | hx
    · exact ⟨[], ring x, rfl, rfl⟩
    · obtain ⟨xs, ys, hs⟩ := List.append_of_mem hx
      exact ⟨xs ++ [x], ys, by simp [hs], by simp⟩
  have hrings := h.rings.addAfter hr hs
  rw [hlast] at hrings
  refine ⟨Function.update ring r (xs ++ e :: ys),
    { mem := ⟨h.mem.span, h.mem.nodup, h.mem.inside, h.mem.apart⟩
      brk := h.brk
      carved := h.carved
      pool := h.pool
      links := h.links.addAfter (h.ring_linked hr hx)
      rings := hrings
      wheel := fun q hq y hy => ?_
      loose_mem := fun y hy => h.loose_mem y (List.mem_cons_of_mem _ hy) },
    fun q y hy => ?_⟩
  · by_cases e' : q = r
    · subst e'
      rw [Function.update_self] at hy
      rcases List.mem_append.mp hy with hy | hy
      · exact h.wheel q hq y (hs ▸ List.mem_append_left _ hy)
      · rcases List.mem_cons.mp hy with rfl | hy
        · exact hc
        · exact h.wheel q hq y (hs ▸ List.mem_append_right _ hy)
    · rw [Function.update_of_ne e'] at hy
      exact h.wheel q hq y hy
  · by_cases e' : q = r
    · subst e'
      rw [Function.update_self]
      rw [hs] at hy
      simp only [List.mem_append, List.mem_cons] at hy ⊢
      tauto
    · rwa [Function.update_of_ne e']

/-! #### Allocation -/

/-- A new structure below all others. -/
theorem carve (h : a.Twin ring loose a') {off : Int} {brk : Brk}
    (hs : shmalloc_dn a.brk k.size = (some off, brk)) :
    Blocks (a.carve k off.toNat brk) ∧ off.toNat ≠ 0 ∧
      (∀ x, x ∈ (a.carve k off.toNat brk).carved k ↔ x = off.toNat ∨ x ∈ a.carved k) ∧
      ∀ k', k' ≠ k → (a.carve k off.toNat brk).carved k' = a.carved k' := by
  obtain ⟨hm, hlow, -⟩ := h.mem.carve hs
  refine ⟨hm, ?_, fun x => ?_, fun k' hk' => ?_⟩
  · unfold HAL_DATA_SIZE at hlow
    omega
  · simp [Arena.carve]
  · simp [Arena.carve, hk']

/-- Where a structure comes from: there is none, or it was free, or it is new. -/
theorem alloc_cases (h : a.Twin ring loose a') (hk : Queued k) :
    (a.alloc k = (0, a) ∧ a'.alloc k = (0, a')) ∨
      (∃ x ∈ a.carved k, x ≠ 0 ∧ a.alloc k = (x, a.setPool k (a.pool k).popFree) ∧
        a'.alloc k = (x, a'.setPool k (a'.pool k).popFree) ∧
        (a.pool k).popFree.Agree (a.carved k) (a'.pool k).popFree) ∨
      ∃ off brk, shmalloc_dn a.brk k.size = (some off, brk) ∧
        a.alloc k = (off.toNat,
          (a.carve k off.toNat brk).setPool k ((a.pool k).setNext off.toNat 0)) ∧
        a'.alloc k = (off.toNat,
          (a'.carve k off.toNat brk).setPool k ((a'.pool k).setNext off.toNat 0)) := by
  have hp := h.pool k hk
  unfold Arena.alloc
  rw [hp.free, h.brk]
  by_cases h₀ : (a.pool k).free_ptr = 0
  · rw [if_neg (not_not_intro h₀), if_neg (not_not_intro h₀)]
    rcases hs : shmalloc_dn a.brk k.size with ⟨_ | off, brk⟩
    · exact .inl ⟨rfl, rfl⟩
    · exact .inr (.inr ⟨off, brk, rfl, rfl, rfl⟩)
  · rw [if_pos h₀, if_pos h₀]
    exact .inr (.inl ⟨_, hp.free_mem h₀, h₀, rfl, rfl, hp.popFree h₀⟩)

/-- `x` is a structure of `b`, and there was at most it to come. -/
structure Gains (k : Kind) (x : Nat) (a b : Arena) : Prop where
  mem : x ∈ b.carved k
  only : ∀ y ∈ b.carved k, y = x ∨ y ∈ a.carved k
  kept : ∀ y ∈ a.carved k, y ∈ b.carved k
  other : ∀ k', k' ≠ k → b.carved k' = a.carved k'

theorem Gains.of_mem {a b : Arena} (hx : x ∈ a.carved k) (e : b.carved = a.carved) :
    Gains k x a b where
  mem := e ▸ hx
  only y hy := .inr (e ▸ hy)
  kept y hy := e ▸ hy
  other k' _ := by rw [e]

theorem Gains.carve {a b : Arena} (brk : Brk) (e : b.carved = (a.carve k x brk).carved) :
    Gains k x a b where
  mem := by rw [e]; simp [Arena.carve]
  only y hy := by
    rw [e] at hy
    simpa [Arena.carve] using hy
  kept y hy := by
    rw [e]
    simp [Arena.carve, hy]
  other k' hk' := by rw [e]; simp [Arena.carve, hk']

theorem carve_pool (h : a.Twin ring loose a') (hk : Queued k) (x : Nat) (brk : Brk) (k' : Kind)
    (hk' : Queued k') :
    (((a.carve k x brk).setPool k ((a.pool k).setNext x 0)).pool k').Agree
      (((a.carve k x brk).setPool k ((a.pool k).setNext x 0)).carved k')
      (((a'.carve k x brk).setPool k ((a'.pool k).setNext x 0)).pool k') := by
  by_cases e : k' = k
  · subst e
    simpa [Arena.setPool, Arena.carve] using (h.pool k' hk).grow x
  · simpa [Arena.setPool, Arena.carve, e] using h.pool k' hk'

theorem alloc (h : a.Twin ring loose a') (hk : Queued k) (hkt : k ≠ .thread) :
    (a'.alloc k).1 = (a.alloc k).1 ∧ (a.alloc k).2.Twin ring loose (a'.alloc k).2 ∧
      ((a.alloc k).1 = 0 → (a.alloc k).2.carved = a.carved) ∧
      ((a.alloc k).1 ≠ 0 → Gains k (a.alloc k).1 a (a.alloc k).2) := by
  rcases h.alloc_cases hk with ⟨e, e'⟩ | ⟨x, hx, h₀, e, e', hp⟩ | ⟨off, brk, hs, e, e'⟩ <;> rw [e, e']
  · exact ⟨rfl, h, fun _ => rfl, fun h₀ => absurd rfl h₀⟩
  · exact ⟨rfl, h.setPool fun _ => hp, fun h => absurd h h₀, fun _ => .of_mem hx rfl⟩
  · obtain ⟨hm, h₀, -, hother⟩ := h.carve hs
    have hthread : (a.carve k off.toNat brk).carved .thread = a.carved .thread :=
      hother _ (Ne.symm hkt)
    have hentry : (a.carve k off.toNat brk).carved .entry = a.carved .entry :=
      hother _ (Ne.symm hk.2)
    have hroots : (a.carve k off.toNat brk).ringRoots = a.ringRoots := by
      unfold ringRoots
      rw [hthread]
    refine ⟨rfl,
      { mem := ⟨hm.span, hm.nodup, hm.inside, hm.apart⟩
        brk := rfl
        carved := by simp only [Arena.setPool, Arena.carve, h.carved]
        pool := h.carve_pool hk _ _
        links := fun x hx => h.links x ?_
        rings := ?_
        wheel := fun r hr e he => ?_
        loose_mem := fun e he => hentry ▸ h.loose_mem e he },
      fun h => absurd h h₀, fun _ => .carve brk rfl⟩
    · rcases hx with hx | hx
      · exact .inl (hroots ▸ hx)
      · exact .inr (hentry ▸ hx)
    · exact hroots.symm ▸ h.rings
    · exact hentry ▸ h.wheel r (hroots ▸ hr) e he

/-- A new thread, with an empty ring. -/
theorem alloc_thread (h : a.Twin ring loose a') :
    (a'.alloc .thread).1 = (a.alloc .thread).1 ∧
      ((a.alloc .thread).1 = 0 → (a.alloc .thread).2 = a ∧ (a'.alloc .thread).2 = a') ∧
      ((a.alloc .thread).1 ≠ 0 → Gains .thread (a.alloc .thread).1 a (a.alloc .thread).2 ∧
        ∃ ring', ((a.alloc .thread).2.list_init_entry
          ((a.alloc .thread).1 + THREAD_FUNCT_LIST)).Twin ring' loose
          ((a'.alloc .thread).2.list_init_entry ((a.alloc .thread).1 + THREAD_FUNCT_LIST))) := by
  have hk : Queued .thread := ⟨by decide, by decide⟩
  rcases h.alloc_cases hk with ⟨e, e'⟩ | ⟨t, ht, h₀, e, e', hp⟩ | ⟨off, brk, hs, e, e'⟩ <;>
    rw [e, e']
  · exact ⟨rfl, fun _ => ⟨rfl, rfl⟩, fun h₀ => absurd rfl h₀⟩
  · refine ⟨rfl, fun h => absurd h h₀, fun _ =>
      ⟨.of_mem ht rfl, Function.update ring (t + THREAD_FUNCT_LIST) [], ?_⟩⟩
    have hpool := h.setPool fun _ => hp
    have hr := thread_root ht
    exact
      { mem := ⟨h.mem.span, h.mem.nodup, h.mem.inside, h.mem.apart⟩
        brk := h.brk
        carved := h.carved
        pool := hpool.pool
        links := h.links.init fun x hx => .inr hx
        rings := h.rings.init_again hr
        wheel := fun r hr e he => by
          by_cases e' : r = t + THREAD_FUNCT_LIST
          · rw [e', Function.update_self] at he
            exact absurd he List.not_mem_nil
          · rw [Function.update_of_ne e'] at he
            exact h.wheel r hr e he
        loose_mem := h.loose_mem }
  · obtain ⟨hm, h₀, hmem, hother⟩ := h.carve hs
    have hnew := (hmem off.toNat).mpr (.inl rfl)
    have hentry : (a.carve .thread off.toNat brk).carved .entry = a.carved .entry :=
      hother _ (by decide)
    have hroots : ∀ r, r ∈ (a.carve .thread off.toNat brk).ringRoots ↔
        r = off.toNat + THREAD_FUNCT_LIST ∨ r ∈ a.ringRoots := fun r => by
      simp only [mem_ringRoots, hmem]
      constructor
      · rintro (h | ⟨t, rfl | ht, rfl⟩)
        · exact .inr (.inl h)
        · exact .inl rfl
        · exact .inr (.inr ⟨t, ht, rfl⟩)
      · rintro (h | h | ⟨t, ht, h⟩)
        · exact .inr ⟨_, .inl rfl, h⟩
        · exact .inl h
        · exact .inr ⟨t, .inr ht, h⟩
    -- the new root is neither a root nor an entry
    have hfresh : ∀ q ∈ a.ringRoots, off.toNat + THREAD_FUNCT_LIST ∉ q :: ring q := by
      intro q hq hin
      rcases List.mem_cons.mp hin with e | hin
      · rcases mem_ringRoots.mp hq with rfl | ⟨t, ht, rfl⟩
        · exact hm.root_ne_free hnew e
        · have hnd := hm.nodup .thread
          rw [show (a.carve .thread off.toNat brk).carved .thread =
            off.toNat :: a.carved .thread by simp [Arena.carve]] at hnd
          exact (List.nodup_cons.mp hnd).1 (Blocks.root_ne e ▸ ht)
      · exact hm.root_ne_entry hnew (hentry.symm ▸ h.wheel q hq _ hin) rfl
    have hloose : off.toNat + THREAD_FUNCT_LIST ∉ loose := fun hin =>
      hm.root_ne_entry hnew (hentry.symm ▸ h.loose_mem _ hin) rfl
    refine ⟨rfl, fun h => absurd h h₀, fun _ => ⟨.carve brk rfl, _,
      { mem := ⟨hm.span, hm.nodup, hm.inside, hm.apart⟩
        brk := rfl
        carved := by simp only [Arena.list_init_entry, Arena.setPool, Arena.carve, h.carved]
        pool := h.carve_pool hk _ _
        links := h.links.init fun x hx => ?_
        rings := (h.rings.init_root hfresh hloose).roots_congr fun r hr =>
          List.mem_cons.mpr ((hroots r).mp hr)
        wheel := fun r hr e he => ?_
        loose_mem := fun e he => hentry.symm ▸ h.loose_mem e he }⟩⟩
    · rcases hx with hx | hx
      · exact ((hroots x).mp hx).imp_right .inl
      · exact .inr (.inr (hentry ▸ hx))
    · by_cases e' : r = off.toNat + THREAD_FUNCT_LIST
      · rw [e', Function.update_self] at he
        exact absurd he List.not_mem_nil
      · rw [Function.update_of_ne e'] at he
        exact hentry.symm ▸ h.wheel r (((hroots r).mp hr).resolve_left e') e he

/-- A function entry, off the rings. -/
theorem alloc_entry (h : a.Twin ring loose a') :
    (a.alloc_entry = none ∧ a'.alloc_entry = none) ∨
      ∃ e b b', a.alloc_entry = some (e, b) ∧ a'.alloc_entry = some (e, b') ∧ Gains .entry e a b ∧
        ∃ ring', b.Twin ring' (e :: loose) b' ∧
          ∀ r ∈ a.ringRoots, r ≠ FUNCT_ENTRY_FREE → ∀ x ∈ r :: ring r, x ∈ r :: ring' r := by
  have hfree := free_root (a := a)
  have hnext : a'.links.next FUNCT_ENTRY_FREE = a.links.next FUNCT_ENTRY_FREE :=
    (h.links _ (.inl hfree)).1
  have hin := h.next_in hfree List.mem_cons_self
  unfold Arena.alloc_entry
  simp only [hnext, h.brk]
  by_cases he : a.links.next FUNCT_ENTRY_FREE = FUNCT_ENTRY_FREE
  · rw [if_neg (not_not_intro he), if_neg (not_not_intro he)]
    rcases hs : shmalloc_dn a.brk Kind.entry.size with ⟨_ | off, brk⟩
    · exact .inl ⟨rfl, rfl⟩
    obtain ⟨hm, h₀, hmem, hother⟩ := h.carve hs
    have hnew := (hmem off.toNat).mpr (.inl rfl)
    have hroots : (a.carve .entry off.toNat brk).ringRoots = a.ringRoots := by
      unfold ringRoots
      rw [hother .thread (by decide)]
    have hnd := hm.nodup .entry
    rw [show (a.carve .entry off.toNat brk).carved .entry = off.toNat :: a.carved .entry by
      simp [Arena.carve]] at hnd
    have hnot := (List.nodup_cons.mp hnd).1
    have hfresh : ∀ q ∈ a.ringRoots, off.toNat ∉ q :: ring q := by
      intro q hq hin
      rcases List.mem_cons.mp hin with e | hin
      · exact root_ne_entry hm (hroots.symm ▸ hq) hnew e.symm
      · exact hnot (h.wheel q hq _ hin)
    refine .inr ⟨_, _, _, rfl, rfl, .carve brk rfl, ring,
      { mem := ⟨hm.span, hm.nodup, hm.inside, hm.apart⟩
        brk := rfl
        carved := by simp only [Arena.list_init_entry, Arena.carve, h.carved]
        pool := fun k' hk' => ?_
        links := h.links.init fun x hx => ?_
        rings := ?_
        wheel := fun r hr e he => (hmem e).mpr (.inr (h.wheel r (hroots ▸ hr) e he))
        loose_mem := fun e he => (hmem e).mpr ((List.mem_cons.mp he).imp_right (h.loose_mem e)) },
      fun r _ _ x hx => hx⟩
    · rw [show ((a.carve .entry off.toNat brk).list_init_entry off.toNat).carved k' = a.carved k' from
        hother k' hk'.2]
      exact h.pool k' hk'
    · rcases hx with hx | hx
      · exact .inr (.inl (hroots ▸ hx))
      · exact ((hmem x).mp hx).imp_right .inr
    · exact hroots.symm ▸ h.rings.init_loose hfresh fun hin => hnot (h.loose_mem _ hin)
  · rw [if_pos he, if_pos he]
    have hring := (List.mem_cons.mp hin).resolve_left he
    obtain ⟨ring', ht, hkept⟩ := h.remove_entry hfree hring
    refine .inr ⟨_, _, _, rfl, rfl, .of_mem (h.wheel _ hfree _ hring) rfl, ring', ht,
      fun r hr hne x hx => hkept r x hx fun e => ?_⟩
    exact h.rings.apart r hr _ hfree hne hx (e ▸ hin)

end Twin

end Arena

end RTS.Hal

import RealTimeSystem.Hal.Threads

/-!
# HAL — where every structure is

`Lists` says which structures are on which list: for each kind the list in use, the free list and
what an operation holds in its hand, and for each root the ring of function entries.
`Shape a L` says that the links of the arena are those of `L`, that every structure ever allocated
is in exactly one place of `L`, and that the structures lie apart in the segment.

There is one theorem for each thing the functions of `Segment.lean` do to an arena; it gives the
lists afterwards.  A list of `L` is shorter than `FUEL` (`Shape.short`), so every walk ends.
-/

namespace RTS.Hal

open RTS.Support

/-! ### Lists -/

/-- Which structures are where. -/
structure Lists where
  /-- the list in use -/
  act : Kind → List Nat
  /-- the free list -/
  free : Kind → List Nat
  /-- on no list: an operation is working on them -/
  hand : Kind → List Nat
  /-- the function entries on the ring of a root -/
  ring : Nat → List Nat

namespace Lists

/-- The roots of the rings: the idle entries, and one for each thread that is not free. -/
def roots (L : Lists) : List Nat :=
  FUNCT_ENTRY_FREE :: (L.act .thread ++ L.hand .thread).map (· + THREAD_FUNCT_LIST)

/-- `x` is taken from the free list, or is new when that is empty. -/
def grab (L : Lists) (k : Kind) (x : Nat) : Lists :=
  { L with
    free := Function.update L.free k (L.free k).tail
    hand := Function.update L.hand k (x :: L.hand k) }

/-- The structure in hand goes on the list in use, which becomes `xs`. -/
def put (L : Lists) (k : Kind) (xs : List Nat) : Lists :=
  { L with act := Function.update L.act k xs, hand := Function.update L.hand k (L.hand k).tail }

/-- `x` is taken from the list in use, which becomes `xs`. -/
def pull (L : Lists) (k : Kind) (xs : List Nat) (x : Nat) : Lists :=
  { L with act := Function.update L.act k xs, hand := Function.update L.hand k (x :: L.hand k) }

/-- The structure `x` in hand becomes free. -/
def drop (L : Lists) (k : Kind) (x : Nat) : Lists :=
  { L with
    free := Function.update L.free k (x :: L.free k)
    hand := Function.update L.hand k (L.hand k).tail }

def setRing (L : Lists) (r : Nat) (xs : List Nat) : Lists :=
  { L with ring := Function.update L.ring r xs }

/-- The entries in hand are `xs`. -/
def setLoose (L : Lists) (xs : List Nat) : Lists :=
  { L with hand := Function.update L.hand .entry xs }

@[simp] theorem grab_act (L : Lists) (k : Kind) (x : Nat) : (L.grab k x).act = L.act := rfl
@[simp] theorem grab_ring (L : Lists) (k : Kind) (x : Nat) : (L.grab k x).ring = L.ring := rfl
@[simp] theorem put_ring (L : Lists) (k : Kind) (xs : List Nat) : (L.put k xs).ring = L.ring := rfl
@[simp] theorem put_free (L : Lists) (k : Kind) (xs : List Nat) : (L.put k xs).free = L.free := rfl
@[simp] theorem pull_ring (L : Lists) (k : Kind) (xs : List Nat) (x : Nat) :
    (L.pull k xs x).ring = L.ring := rfl
@[simp] theorem pull_free (L : Lists) (k : Kind) (xs : List Nat) (x : Nat) :
    (L.pull k xs x).free = L.free := rfl
@[simp] theorem drop_act (L : Lists) (k : Kind) (x : Nat) : (L.drop k x).act = L.act := rfl
@[simp] theorem drop_ring (L : Lists) (k : Kind) (x : Nat) : (L.drop k x).ring = L.ring := rfl
@[simp] theorem setRing_act (L : Lists) (r : Nat) (xs : List Nat) :
    (L.setRing r xs).act = L.act := rfl
@[simp] theorem setRing_free (L : Lists) (r : Nat) (xs : List Nat) :
    (L.setRing r xs).free = L.free := rfl
@[simp] theorem setRing_hand (L : Lists) (r : Nat) (xs : List Nat) :
    (L.setRing r xs).hand = L.hand := rfl
@[simp] theorem setLoose_act (L : Lists) (xs : List Nat) : (L.setLoose xs).act = L.act := rfl
@[simp] theorem setLoose_free (L : Lists) (xs : List Nat) : (L.setLoose xs).free = L.free := rfl
@[simp] theorem setLoose_ring (L : Lists) (xs : List Nat) : (L.setLoose xs).ring = L.ring := rfl

theorem mem_roots {L : Lists} {r : Nat} :
    r ∈ L.roots ↔ r = FUNCT_ENTRY_FREE ∨
      ∃ t, (t ∈ L.act .thread ∨ t ∈ L.hand .thread) ∧ r = t + THREAD_FUNCT_LIST := by
  simp only [roots, List.mem_cons, List.mem_map, List.mem_append, eq_comm]

end Lists

/-! ### Blocks -/

/-- The structures lie between `shmem_top` and the end of the segment, apart. -/
structure Blocks (a : Arena) : Prop where
  span : a.brk.Span
  nodup : ∀ k, (a.carved k).Nodup
  inside : ∀ k, ∀ x ∈ a.carved k, a.brk.shmem_top ≤ x ∧ x + k.size ≤ HAL_SIZE
  apart : ∀ k k' x x', x ∈ a.carved k → x' ∈ a.carved k' → k ≠ k' ∨ x ≠ x' →
    x + k.size ≤ x' ∨ x' + k'.size ≤ x

namespace Blocks

variable {a : Arena} {k : Kind} {x : Nat}

theorem low (h : Blocks a) (hx : x ∈ a.carved k) : HAL_DATA_SIZE ≤ x := by
  have h₁ := (h.inside k x hx).1
  have h₂ := h.span.lo
  have h₃ := h.span.mid
  omega

theorem ne_zero (h : Blocks a) (hx : x ∈ a.carved k) : x ≠ 0 := by
  have := h.low hx
  unfold HAL_DATA_SIZE at this
  omega

/-- There are fewer structures than walk steps. -/
theorem length_lt (h : Blocks a) {xs : List Nat} (hn : xs.Nodup) (hs : ∀ x ∈ xs, x ∈ a.carved k) :
    xs.length < FUEL := by
  have hsub : xs ⊆ List.range (HAL_SIZE + 1) := fun x hx => by
    have := (h.inside k x (hs x hx)).2
    exact List.mem_range.mpr (by omega)
  have := (List.subperm_of_subset hn hsub).length_le
  rw [List.length_range] at this
  have hne : xs.length ≠ HAL_SIZE + 1 := by
    intro he
    -- as many structures as offsets would put one at offset 0
    have hp := (List.subperm_of_subset hn hsub).perm_of_length_le (by simp [he])
    exact h.ne_zero (hs 0 (hp.mem_iff.mpr (by simp))) rfl
  unfold FUEL
  omega

/-- A new structure lies below all others. -/
theorem carve (h : Blocks a) {off : Int} {brk : Brk}
    (hs : shmalloc_dn a.brk k.size = (some off, brk)) :
    Blocks (a.carve k off.toNat brk) ∧ HAL_DATA_SIZE ≤ off.toNat ∧
      ∀ k', ∀ x ∈ a.carved k', off.toNat + k.size ≤ x := by
  obtain ⟨h₁, h₂, -, h₃, h₄⟩ := shmalloc_dn_some h.span (by omega) hs
  have lo := h.span.lo
  have hi := h.span.hi
  have hoff : (off.toNat : Int) = off := Int.toNat_of_nonneg (by omega)
  have below : ∀ k', ∀ x ∈ a.carved k', off.toNat + k.size ≤ x := fun k' x hx => by
    have := (h.inside k' x hx).1
    omega
  have hpos : 0 < k.size := by cases k <;> decide
  have hnew : ∀ k' x, x ∈ (a.carve k off.toNat brk).carved k' →
      (k' = k ∧ x = off.toNat) ∨ x ∈ a.carved k' := by
    intro k' x hx
    by_cases hk : k' = k
    · subst hk
      rcases List.mem_cons.mp (by simpa [Arena.carve] using hx) with rfl | hx
      · exact .inl ⟨rfl, rfl⟩
      · exact .inr hx
    · exact .inr (by simpa [Arena.carve, hk] using hx)
  refine ⟨⟨⟨?_, ?_, ?_⟩, fun k' => ?_, fun k' x hx => ?_, fun k₁ k₂ x₁ x₂ hx₁ hx₂ hne => ?_⟩,
    by omega, below⟩
  · show (HAL_DATA_SIZE : Int) ≤ brk.shmem_bot
    omega
  · show brk.shmem_bot ≤ brk.shmem_top
    omega
  · show brk.shmem_top ≤ HAL_SIZE
    omega
  · by_cases hk : k' = k
    · subst hk
      simp only [Arena.carve, Function.update_self]
      refine List.nodup_cons.mpr ⟨fun hm => ?_, h.nodup k'⟩
      have := below k' _ hm
      omega
    · simpa [Arena.carve, hk] using h.nodup k'
  · show brk.shmem_top ≤ x ∧ x + k'.size ≤ HAL_SIZE
    rcases hnew k' x hx with ⟨rfl, rfl⟩ | hx
    · omega
    · have := h.inside k' x hx
      omega
  · rcases hnew k₁ x₁ hx₁ with ⟨rfl, rfl⟩ | h₁ <;> rcases hnew k₂ x₂ hx₂ with ⟨rfl, rfl⟩ | h₂
    · simp at hne
    · exact .inl (below _ _ h₂)
    · exact .inr (below _ _ h₁)
    · exact h.apart k₁ k₂ x₁ x₂ h₁ h₂ hne

/-- The root inside a thread is not the root of another one, nor a function entry. -/
theorem root_ne {t t' : Nat} (h : t + THREAD_FUNCT_LIST = t' + THREAD_FUNCT_LIST) : t = t' := by
  unfold THREAD_FUNCT_LIST at h; omega

theorem root_ne_free (h : Blocks a) {t : Nat} (ht : t ∈ a.carved .thread) :
    t + THREAD_FUNCT_LIST ≠ FUNCT_ENTRY_FREE := by
  have := h.low ht
  unfold HAL_DATA_SIZE at this
  unfold THREAD_FUNCT_LIST FUNCT_ENTRY_FREE
  omega

theorem root_ne_entry (h : Blocks a) {t e : Nat} (ht : t ∈ a.carved .thread)
    (he : e ∈ a.carved .entry) : t + THREAD_FUNCT_LIST ≠ e := by
  have := h.apart .thread .entry t e ht he (.inl (by decide))
  simp only [Kind.size] at this
  unfold THREAD_FUNCT_LIST
  omega

theorem free_ne_entry (h : Blocks a) {e : Nat} (he : e ∈ a.carved .entry) :
    e ≠ FUNCT_ENTRY_FREE := by
  have := h.low he
  unfold HAL_DATA_SIZE at this
  unfold FUNCT_ENTRY_FREE
  omega

end Blocks

/-! ### The shape of an arena -/

/-- The links of `a` are those of `L`, and every structure is in one place of `L`. -/
structure Shape (a : Arena) (L : Lists) : Prop where
  mem : Blocks a
  rep : ∀ k, (a.pool k).Rep (L.act k) (L.free k)
  whole : ∀ k, k ≠ .entry → (L.act k ++ L.free k ++ L.hand k).Perm (a.carved k)
  rings : Rings a.links L.roots L.ring (L.hand .entry)
  wheel : ∀ e, e ∈ a.carved .entry ↔ e ∈ L.hand .entry ∨ ∃ r ∈ L.roots, e ∈ L.ring r

namespace Shape

variable {a : Arena} {L L' : Lists} {k : Kind} {x e r t : Nat} {xs ys hs : List Nat}

theorem nodup (h : Shape a L) (hk : k ≠ .entry) : (L.act k ++ L.free k ++ L.hand k).Nodup :=
  (h.whole k hk).nodup_iff.mpr (h.mem.nodup k)

theorem carved_act (h : Shape a L) (hk : k ≠ .entry) (hx : x ∈ L.act k) : x ∈ a.carved k :=
  (h.whole k hk).mem_iff.mp (by simp [hx])

theorem carved_hand (h : Shape a L) (hk : k ≠ .entry) (hx : x ∈ L.hand k) : x ∈ a.carved k :=
  (h.whole k hk).mem_iff.mp (by simp [hx])

theorem act_ne_zero (h : Shape a L) (hx : x ∈ L.act k) : x ≠ 0 := (h.rep k).used.ne_zero x hx

/-- A structure in hand is on neither list. -/
theorem hand_fresh (h : Shape a L) (hk : k ≠ .entry) (hh : L.hand k = x :: hs) :
    x ∉ L.act k ++ L.free k := by
  have := h.nodup hk
  rw [hh] at this
  exact fun hm => (List.nodup_append.mp this).2.2 x hm x (by simp) rfl

/-- The list in use is shorter than `FUEL`. -/
theorem short (h : Shape a L) (hk : k ≠ .entry) : (L.act k).length < FUEL :=
  h.mem.length_lt (h.rep k).used.nodup fun _ hx => h.carved_act hk hx

theorem thread_root (h : t ∈ L.act .thread ∨ t ∈ L.hand .thread) :
    t + THREAD_FUNCT_LIST ∈ L.roots :=
  Lists.mem_roots.mpr (.inr ⟨t, h, rfl⟩)

theorem ring_carved (h : Shape a L) (hr : r ∈ L.roots) (he : e ∈ L.ring r) :
    e ∈ a.carved .entry := (h.wheel e).mpr (.inr ⟨r, hr, he⟩)

theorem ring_short (h : Shape a L) (hr : r ∈ L.roots) : (L.ring r).length < FUEL :=
  h.mem.length_lt (List.nodup_cons.mp (h.rings.nodup r hr)).2 fun _ he => h.ring_carved hr he

/-- A thread has its root at an offset of its own. -/
theorem carved_thread (h : Shape a L) (ht : t ∈ L.act .thread ∨ t ∈ L.hand .thread) :
    t ∈ a.carved .thread :=
  ht.elim (h.carved_act (by decide)) (h.carved_hand (by decide))

/-- New links of one pool and new rings. -/
theorem of_pool (h : Shape a L) (L' : Lists) {p : Pool} {l : Links} (hk : k ≠ .entry)
    (hrep : p.Rep (L'.act k) (L'.free k))
    (hperm : (L'.act k ++ L'.free k ++ L'.hand k).Perm (L.act k ++ L.free k ++ L.hand k))
    (hoth : ∀ k', k' ≠ k →
      L'.act k' = L.act k' ∧ L'.free k' = L.free k' ∧ L'.hand k' = L.hand k')
    (hrings : Rings l L'.roots L'.ring (L'.hand .entry))
    (hwheel : ∀ e, (e ∈ L'.hand .entry ∨ ∃ r ∈ L'.roots, e ∈ L'.ring r) ↔
      (e ∈ L.hand .entry ∨ ∃ r ∈ L.roots, e ∈ L.ring r)) :
    Shape { a.setPool k p with links := l } L' where
  mem := ⟨h.mem.span, h.mem.nodup, h.mem.inside, h.mem.apart⟩
  rep k' := by
    by_cases hk' : k' = k
    · subst hk'; simpa [Arena.setPool] using hrep
    · obtain ⟨h₁, h₂, -⟩ := hoth k' hk'
      rw [h₁, h₂]; simpa [Arena.setPool, hk'] using h.rep k'
  whole k' hk' := by
    by_cases hkk : k' = k
    · subst hkk; exact hperm.trans (h.whole k' hk')
    · obtain ⟨h₁, h₂, h₃⟩ := hoth k' hkk
      rw [h₁, h₂, h₃]; exact h.whole k' hk'
  rings := hrings
  wheel e := (h.wheel e).trans (hwheel e).symm

/-- New links of one pool; the rings stay. -/
theorem setPool (h : Shape a L) {p : Pool} (hk : k ≠ .entry)
    (hrep : p.Rep (L'.act k) (L'.free k))
    (hperm : (L'.act k ++ L'.free k ++ L'.hand k).Perm (L.act k ++ L.free k ++ L.hand k))
    (hoth : ∀ k', k' ≠ k →
      L'.act k' = L.act k' ∧ L'.free k' = L.free k' ∧ L'.hand k' = L.hand k')
    (hring : L'.ring = L.ring) (hroots : ∀ r, r ∈ L'.roots ↔ r ∈ L.roots) :
    Shape (a.setPool k p) L' := by
  have he := (hoth .entry (Ne.symm hk)).2.2
  refine h.of_pool L' (l := a.links) hk hrep hperm hoth ?_ fun e => ?_
  · rw [hring, he]
    exact h.rings.roots_congr fun r hr => (hroots r).mp hr
  · rw [hring, he]
    simp only [hroots]

/-- New rings; the lists stay. -/
theorem setLinks (h : Shape a L) {l : Links}
    (hoth : ∀ k', k' ≠ .entry →
      L'.act k' = L.act k' ∧ L'.free k' = L.free k' ∧ L'.hand k' = L.hand k')
    (hent : L'.act .entry = L.act .entry ∧ L'.free .entry = L.free .entry)
    (hrings : Rings l L'.roots L'.ring (L'.hand .entry))
    (hwheel : ∀ e, (e ∈ L'.hand .entry ∨ ∃ r ∈ L'.roots, e ∈ L'.ring r) ↔
      (e ∈ L.hand .entry ∨ ∃ r ∈ L.roots, e ∈ L.ring r)) :
    Shape { a with links := l } L' where
  mem := ⟨h.mem.span, h.mem.nodup, h.mem.inside, h.mem.apart⟩
  rep k' := by
    by_cases hk' : k' = .entry
    · rw [hk', hent.1, hent.2]; exact h.rep _
    · obtain ⟨h₁, h₂, -⟩ := hoth k' hk'
      rw [h₁, h₂]; exact h.rep k'
  whole k' hk' := by
    obtain ⟨h₁, h₂, h₃⟩ := hoth k' hk'
    rw [h₁, h₂, h₃]; exact h.whole k' hk'
  rings := hrings
  wheel e := (h.wheel e).trans (hwheel e).symm

/-! ### Lists -/

theorem mem_roots_grab (hk : k ≠ .thread) : r ∈ (L.grab k x).roots ↔ r ∈ L.roots := by
  simp [Lists.mem_roots, Lists.grab, Function.update_of_ne hk.symm]

/-- Putting the structure in hand on the list in use, between `xs` and `ys`. -/
theorem put (h : Shape a L) (hk : k ≠ .entry) (hh : L.hand k = x :: hs)
    (hs : L.act k = xs ++ ys) :
    Shape (a.setPool k ((a.pool k).insertAt (Link.of xs) x)) (L.put k (xs ++ x :: ys)) := by
  have hfresh := h.hand_fresh hk hh
  have h0 : x ≠ 0 := h.mem.ne_zero (h.carved_hand hk (by simp [hh]))
  have hrep := h.rep k
  rw [hs] at hrep hfresh
  refine h.setPool hk ?_ ?_ (fun k' hk' => by simp [Lists.put, hk']) rfl fun r => ?_
  · simpa [Lists.put] using hrep.insertAt hfresh h0
  · simp only [Lists.put, Function.update_self, hh, hs, List.tail_cons]
    have : List.Perm (xs ++ x :: ys ++ L.free k) (x :: (xs ++ ys ++ L.free k)) :=
      List.perm_middle.append_right _
    exact (this.append_right _).trans List.perm_middle.symm
  · simp only [Lists.mem_roots]
    by_cases hkt : k = .thread
    · subst hkt
      simp only [Lists.put, Function.update_self, hh, hs, List.tail_cons, List.mem_append,
        List.mem_cons]
      refine or_congr_right (exists_congr fun t => and_congr_left fun _ => ?_)
      tauto
    · simp [Lists.put, Function.update_of_ne (Ne.symm hkt)]

/-- Taking `x` off the list in use. -/
theorem pull (h : Shape a L) (hk : k ≠ .entry) (hs : L.act k = xs ++ x :: ys) :
    Shape (a.setPool k ((a.pool k).unlink (Link.of xs) x)) (L.pull k (xs ++ ys) x) := by
  have hrep := h.rep k
  rw [hs] at hrep
  refine h.setPool hk ?_ ?_ (fun k' hk' => by simp [Lists.pull, hk']) rfl fun r => ?_
  · simpa [Lists.pull] using hrep.unlink
  · simp only [Lists.pull, Function.update_self, hs]
    have : List.Perm (xs ++ x :: ys ++ L.free k) (x :: (xs ++ ys ++ L.free k)) :=
      List.perm_middle.append_right _
    exact List.perm_middle.trans (this.append_right _).symm
  · simp only [Lists.mem_roots]
    by_cases hkt : k = .thread
    · subst hkt
      simp only [Lists.pull, Function.update_self, hs, List.mem_append, List.mem_cons]
      refine or_congr_right (exists_congr fun t => and_congr_left fun _ => ?_)
      tauto
    · simp [Lists.pull, Function.update_of_ne (Ne.symm hkt)]

theorem drop_perm (hh : L.hand k = x :: hs) :
    ((L.drop k x).act k ++ (L.drop k x).free k ++ (L.drop k x).hand k).Perm
      (L.act k ++ L.free k ++ L.hand k) := by
  simp only [Lists.drop, Function.update_self, hh, List.tail_cons]
  have : List.Perm (L.act k ++ x :: L.free k) (x :: (L.act k ++ L.free k)) := List.perm_middle
  exact (this.append_right _).trans List.perm_middle.symm

theorem drop_rep (h : Shape a L) (hk : k ≠ .entry) (hh : L.hand k = x :: hs) :
    ((a.pool k).pushFree x).Rep ((L.drop k x).act k) ((L.drop k x).free k) := by
  have h0 : x ≠ 0 := h.mem.ne_zero (h.carved_hand hk (by simp [hh]))
  simpa [Lists.drop] using (h.rep k).pushFree (h.hand_fresh hk hh) h0

/-- Freeing the structure in hand. -/
theorem drop (h : Shape a L) (hk : k ≠ .entry) (hkt : k ≠ .thread) (hh : L.hand k = x :: hs) :
    Shape (a.setPool k ((a.pool k).pushFree x)) (L.drop k x) :=
  h.setPool hk (h.drop_rep hk hh) (drop_perm hh) (fun k' hk' => by simp [Lists.drop, hk']) rfl
    fun r => by simp [Lists.mem_roots, Lists.drop, Function.update_of_ne (Ne.symm hkt)]

/-- Freeing the thread in hand, when its ring is empty. -/
theorem drop_thread (h : Shape a L) (hh : L.hand .thread = t :: hs)
    (hr : L.ring (t + THREAD_FUNCT_LIST) = []) :
    Shape (a.setPool .thread ((a.pool .thread).pushFree t)) (L.drop .thread t) := by
  have hk : Kind.thread ≠ .entry := by decide
  have hroots : ∀ r, r ∈ L.roots ↔ r = t + THREAD_FUNCT_LIST ∨ r ∈ (L.drop .thread t).roots := by
    intro r
    simp only [Lists.mem_roots, Lists.drop, Function.update_self, hh, List.tail_cons,
      List.mem_cons]
    constructor
    · rintro (h | ⟨s, h | rfl | h, rfl⟩)
      · exact .inr (.inl h)
      · exact .inr (.inr ⟨s, .inl h, rfl⟩)
      · exact .inl rfl
      · exact .inr (.inr ⟨s, .inr h, rfl⟩)
    · rintro (h | h | ⟨s, h | h, rfl⟩)
      · exact .inr ⟨t, .inr (.inl rfl), h⟩
      · exact .inl h
      · exact .inr ⟨s, .inl h, rfl⟩
      · exact .inr ⟨s, .inr (.inr h), rfl⟩
  have he : (L.drop .thread t).hand .entry = L.hand .entry := by simp [Lists.drop]
  refine h.of_pool (L.drop .thread t) (l := a.links) hk (h.drop_rep hk hh) (drop_perm hh)
    (fun k' hk' => by simp [Lists.drop, hk']) ?_ fun e => ?_
  · rw [he]
    exact h.rings.roots_congr fun r hr => (hroots r).mpr (.inr hr)
  · rw [he, Lists.drop_ring]
    refine or_congr_right ⟨fun ⟨r, hr, h⟩ => ⟨r, (hroots r).mpr (.inr hr), h⟩, ?_⟩
    rintro ⟨r, hr', h⟩
    rcases (hroots r).mp hr' with rfl | hr'
    · simp [hr] at h
    · exact ⟨r, hr', h⟩

/-! ### Allocation -/

theorem alloc_full (hf : a.Full k) : a.alloc k = (0, a) := by
  obtain ⟨h₁, h₂⟩ := hf
  unfold Arena.alloc
  rw [if_neg (by simpa using h₁)]
  rcases hs : shmalloc_dn a.brk k.size with ⟨_ | off, brk⟩
  · rfl
  · simp [hs] at h₂

/-- The structures are as before when a new one, `x`, was carved and its link cleared. -/
theorem carve_rep (h : Shape a L) {off : Int} {brk : Brk}
    (hs : shmalloc_dn a.brk k.size = (some off, brk)) (hk : k ≠ .entry) (k' : Kind) :
    (((a.carve k off.toNat brk).setPool k ((a.pool k).setNext off.toNat 0)).pool k').Rep
      (L.act k') (L.free k') := by
  by_cases hkk : k' = k
  · subst hkk
    simp only [Arena.setPool, Function.update_self]
    refine (h.rep k').setNext (fun hm => ?_) 0
    have hc : off.toNat ∈ a.carved k' := (h.whole k' hk).mem_iff.mp (List.mem_append_left _ hm)
    have := (h.mem.carve hs).2.2 k' _ hc
    have hpos : 0 < k'.size := by cases k' <;> decide
    omega
  · simpa [Arena.setPool, Arena.carve, hkk] using h.rep k'

theorem carve_whole (h : Shape a L) {x : Nat} (brk : Brk) {k' : Kind} (hk' : k' ≠ .entry) :
    (L.act k' ++ L.free k' ++ Function.update L.hand k (x :: L.hand k) k').Perm
      ((a.carve k x brk).carved k') := by
  by_cases hkk : k' = k
  · subst hkk
    simp only [Arena.carve, Function.update_self]
    exact List.perm_middle.trans ((h.whole k' hk').cons x)
  · simpa [Arena.carve, hkk] using h.whole k' hk'

theorem grab_eq (hf : L.free k = []) :
    L.grab k x = { L with hand := Function.update L.hand k (x :: L.hand k) } := by
  have : Function.update L.free k (L.free k).tail = L.free := by
    rw [hf, List.tail_nil, ← hf, Function.update_eq_self]
  simp [Lists.grab, this]

theorem grab_free_perm {fs : List Nat} (hf : L.free k = x :: fs) :
    ((L.grab k x).act k ++ (L.grab k x).free k ++ (L.grab k x).hand k).Perm
      (L.act k ++ L.free k ++ L.hand k) := by
  simp only [Lists.grab, Function.update_self, hf, List.tail_cons]
  have : List.Perm (L.act k ++ x :: fs) (x :: (L.act k ++ fs)) := List.perm_middle
  exact List.perm_middle.trans (this.append_right _).symm

theorem grab_free_rep (h : Shape a L) {fs : List Nat} (hf : L.free k = x :: fs) :
    ((a.pool k).popFree).Rep ((L.grab k x).act k) ((L.grab k x).free k) := by
  have hrep := h.rep k
  rw [hf] at hrep
  simpa [Lists.grab, hf] using hrep.popFree

/-- The two ways a structure is found when there is one. -/
theorem alloc_cases (h : Shape a L) (hf : ¬ a.Full k) :
    (∃ x fs, L.free k = x :: fs ∧ a.alloc k = (x, a.setPool k (a.pool k).popFree)) ∨
      ∃ off brk, L.free k = [] ∧ shmalloc_dn a.brk k.size = (some off, brk) ∧
        a.alloc k = (off.toNat,
          (a.carve k off.toNat brk).setPool k ((a.pool k).setNext off.toNat 0)) := by
  have hhead : (a.pool k).free_ptr = (L.free k).headD 0 := (h.rep k).free_ptr_eq
  rcases hl : L.free k with _ | ⟨x, fs⟩
  · rw [hl] at hhead
    have h₀ : (a.pool k).free_ptr = 0 := hhead
    rcases hs : shmalloc_dn a.brk k.size with ⟨_ | off, brk⟩
    · exact absurd ⟨h₀, by rw [hs]⟩ hf
    · exact .inr ⟨off, brk, rfl, rfl, by simp [Arena.alloc, h₀, hs]⟩
  · rw [hl] at hhead
    have h₁ : (a.pool k).free_ptr = x := hhead
    have h0 : x ≠ 0 := (h.rep k).spare.ne_zero x (by simp [hl])
    exact .inl ⟨x, fs, rfl, by simp [Arena.alloc, h₁, h0]⟩

/-- A structure is taken in hand. -/
theorem alloc (h : Shape a L) (hk : k ≠ .entry) (hkt : k ≠ .thread) (hf : ¬ a.Full k) :
    (a.alloc k).1 ≠ 0 ∧ Shape (a.alloc k).2 (L.grab k (a.alloc k).1) := by
  rcases h.alloc_cases hf with ⟨x, fs, hl, ha⟩ | ⟨off, brk, hl, hs, ha⟩
  · rw [ha]
    refine ⟨(h.rep k).spare.ne_zero x (by simp [hl]), ?_⟩
    exact h.setPool hk (h.grab_free_rep hl) (grab_free_perm hl)
      (fun k' hk' => by simp [Lists.grab, hk']) rfl fun r => mem_roots_grab hkt
  · obtain ⟨hm, hlow, -⟩ := h.mem.carve hs
    rw [ha]
    refine ⟨by unfold HAL_DATA_SIZE at hlow; simp only; omega, ?_⟩
    rw [grab_eq hl]
    have hrr : ∀ r, r ∈ ({ L with hand := Function.update L.hand k (off.toNat :: L.hand k) } :
        Lists).roots ↔ r ∈ L.roots := fun r => by
      rw [← grab_eq hl]; exact mem_roots_grab hkt
    refine ⟨⟨hm.span, hm.nodup, hm.inside, hm.apart⟩, h.carve_rep hs hk,
      fun k' hk' => h.carve_whole brk hk', ?_, fun e => ?_⟩
    · simp only [Function.update_of_ne (Ne.symm hk)]
      exact h.rings.roots_congr fun r hr => (hrr r).mp hr
    · simp only [hrr, Function.update_of_ne (Ne.symm hk)]
      simpa [Arena.setPool, Arena.carve, Function.update_of_ne (Ne.symm hk)] using h.wheel e

/-- No ring or idle entry is at the root of a thread in hand. -/
theorem root_fresh (h : Shape a L) {t : Nat} (ht : t ∈ a.carved .thread)
    (hn : t ∉ L.act .thread ∧ t ∉ L.hand .thread) :
    (∀ q ∈ L.roots, t + THREAD_FUNCT_LIST ∉ q :: L.ring q) ∧
      t + THREAD_FUNCT_LIST ∉ L.hand .entry := by
  refine ⟨fun q hq hm => ?_, fun hm => ?_⟩
  · rcases List.mem_cons.mp hm with he | hm
    · rcases Lists.mem_roots.mp hq with rfl | ⟨s, hs, rfl⟩
      · exact h.mem.root_ne_free ht he
      · obtain rfl := Blocks.root_ne he
        exact hs.elim hn.1 hn.2
    · exact h.mem.root_ne_entry ht (h.ring_carved hq hm) rfl
  · exact h.mem.root_ne_entry ht ((h.wheel _).mpr (.inl hm)) rfl

theorem mem_roots_grab_thread :
    r ∈ (L.grab .thread t).roots ↔ r = t + THREAD_FUNCT_LIST ∨ r ∈ L.roots := by
  simp only [Lists.mem_roots, Lists.grab, Function.update_self, List.mem_cons]
  constructor
  · rintro (h | ⟨s, h | rfl | h, rfl⟩)
    · exact .inr (.inl h)
    · exact .inr (.inr ⟨s, .inl h, rfl⟩)
    · exact .inl rfl
    · exact .inr (.inr ⟨s, .inr h, rfl⟩)
  · rintro (h | h | ⟨s, h | h, rfl⟩)
    · exact .inr ⟨t, .inr (.inl rfl), h⟩
    · exact .inl h
    · exact .inr ⟨s, .inl h, rfl⟩
    · exact .inr ⟨s, .inr (.inr h), rfl⟩

/-- The ring of a thread taken in hand is empty. -/
theorem grab_rings (h : Shape a L) {t : Nat}
    (hf : (∀ q ∈ L.roots, t + THREAD_FUNCT_LIST ∉ q :: L.ring q) ∧
      t + THREAD_FUNCT_LIST ∉ L.hand .entry) :
    Rings (a.links.init (t + THREAD_FUNCT_LIST)) (L.grab .thread t).roots
      (Function.update L.ring (t + THREAD_FUNCT_LIST) []) (L.hand .entry) :=
  (h.rings.init_root hf.1 hf.2).roots_congr fun r hr => by
    simpa using mem_roots_grab_thread.mp hr

theorem grab_wheel {t : Nat} (hf : ∀ q ∈ L.roots, t + THREAD_FUNCT_LIST ∉ q :: L.ring q) (e : Nat) :
    (∃ r ∈ (L.grab .thread t).roots, e ∈ Function.update L.ring (t + THREAD_FUNCT_LIST) [] r) ↔
      ∃ r ∈ L.roots, e ∈ L.ring r := by
  have hne : ∀ q ∈ L.roots, q ≠ t + THREAD_FUNCT_LIST := by
    rintro q hq rfl; exact hf _ hq (by simp)
  constructor
  · rintro ⟨r, hr, he⟩
    rcases mem_roots_grab_thread.mp hr with rfl | hr
    · simp at he
    · exact ⟨r, hr, by rwa [Function.update_of_ne (hne r hr)] at he⟩
  · rintro ⟨r, hr, he⟩
    exact ⟨r, mem_roots_grab_thread.mpr (.inr hr), by rwa [Function.update_of_ne (hne r hr)]⟩

/-- A thread is taken in hand, with an empty ring. -/
theorem alloc_thread (h : Shape a L) (hf : ¬ a.Full .thread) :
    (a.alloc .thread).1 ≠ 0 ∧
      Shape ((a.alloc .thread).2.list_init_entry ((a.alloc .thread).1 + THREAD_FUNCT_LIST))
        ((L.grab .thread (a.alloc .thread).1).setRing
          ((a.alloc .thread).1 + THREAD_FUNCT_LIST) []) := by
  have hk : Kind.thread ≠ .entry := by decide
  rcases h.alloc_cases hf with ⟨t, fs, hl, ha⟩ | ⟨off, brk, hl, hs, ha⟩
  · have hc : t ∈ a.carved .thread := (h.whole _ hk).mem_iff.mp (by simp [hl])
    have hn : t ∉ L.act .thread ∧ t ∉ L.hand .thread := by
      have hd := List.nodup_append.mp (h.nodup hk)
      have hd' := List.nodup_append.mp hd.1
      exact ⟨fun hm => hd'.2.2 t hm t (by simp [hl]) rfl,
        fun hm => hd.2.2 t (by simp [hl]) t hm rfl⟩
    have hr := h.root_fresh hc hn
    rw [ha]
    refine ⟨h.mem.ne_zero hc, h.of_pool ((L.grab .thread t).setRing _ []) hk
      (h.grab_free_rep hl) (grab_free_perm hl) (fun k' hk' => by simp [Lists.grab, hk']) ?_
      fun e => ?_⟩
    · exact h.grab_rings hr
    · exact or_congr_right (grab_wheel hr.1 e)
  · obtain ⟨hm, hlow, hbelow⟩ := h.mem.carve hs
    have hlow' : 272 ≤ off.toNat := hlow
    have hsize : Kind.thread.size = 120 := rfl
    have hr : (∀ q ∈ L.roots, off.toNat + THREAD_FUNCT_LIST ∉ q :: L.ring q) ∧
        off.toNat + THREAD_FUNCT_LIST ∉ L.hand .entry := by
      -- the new thread lies below every structure, its root with it
      have hb : ∀ k, ∀ x ∈ a.carved k, off.toNat + THREAD_FUNCT_LIST < x := fun k x hx => by
        have := hbelow k x hx
        unfold THREAD_FUNCT_LIST
        omega
      refine ⟨fun q hq hm => ?_, fun hm => ?_⟩
      · rcases List.mem_cons.mp hm with he | hm
        · rcases Lists.mem_roots.mp hq with rfl | ⟨s, hs, rfl⟩
          · unfold FUNCT_ENTRY_FREE THREAD_FUNCT_LIST at he; omega
          · obtain rfl := Blocks.root_ne he
            have := hb _ _ (h.carved_thread hs)
            omega
        · have := hb _ _ (h.ring_carved hq hm)
          omega
      · have := hb _ _ ((h.wheel _).mpr (.inl hm))
        omega
    rw [ha]
    refine ⟨by simp only; omega, ?_⟩
    have hg := h.grab_rings hr
    have hw := fun e => grab_wheel (L := L) (t := off.toNat) hr.1 e
    rw [grab_eq hl] at hg hw ⊢
    refine ⟨⟨hm.span, hm.nodup, hm.inside, hm.apart⟩, h.carve_rep hs hk,
      fun k' hk' => h.carve_whole brk hk', ?_, fun e => ?_⟩
    · simp only [Lists.setRing, Function.update_of_ne (Ne.symm hk)]
      exact hg
    · simp only [Lists.setRing, Function.update_of_ne (Ne.symm hk), Arena.setPool, Arena.carve,
        Arena.list_init_entry]
      exact (h.wheel e).trans (or_congr_right (hw e).symm)

/-! ### Function entries -/

theorem setRing_roots : (L.setRing r xs).roots = L.roots := rfl

theorem setLoose_roots : (L.setLoose xs).roots = L.roots := by
  simp [Lists.setLoose, Lists.roots]

/-- The entry behind `xs` on a ring is taken in hand. -/
theorem remove_entry (h : Shape a L) (hr : r ∈ L.roots) (hs : L.ring r = xs ++ e :: ys) :
    Shape (a.list_remove_entry e) ((L.setRing r (xs ++ ys)).setLoose (e :: L.hand .entry)) := by
  refine h.setLinks (fun k' hk' => by simp [Lists.setLoose, Lists.setRing, hk']) ⟨rfl, rfl⟩ ?_
    fun y => ?_
  · rw [setLoose_roots, setRing_roots]
    simpa [Lists.setLoose, Lists.setRing] using h.rings.remove hr hs
  · rw [setLoose_roots, setRing_roots]
    simp only [Lists.setLoose, Lists.setRing, Function.update_self, List.mem_cons]
    constructor
    · rintro ((rfl | hy) | ⟨q, hq, hy⟩)
      · exact .inr ⟨r, hr, by simp [hs]⟩
      · exact .inl hy
      · by_cases hqr : q = r
        · subst hqr
          rw [Function.update_self] at hy
          exact .inr ⟨q, hq, by rw [hs]; simp at hy ⊢; tauto⟩
        · exact .inr ⟨q, hq, by rwa [Function.update_of_ne hqr] at hy⟩
    · rintro (hy | ⟨q, hq, hy⟩)
      · exact .inl (.inr hy)
      · by_cases hqr : q = r
        · subst hqr
          rw [hs] at hy
          by_cases hye : y = e
          · exact .inl (.inl hye)
          · exact .inr ⟨q, hq, by rw [Function.update_self]; simp at hy ⊢; tauto⟩
        · exact .inr ⟨q, hq, by rwa [Function.update_of_ne hqr]⟩

/-- The entry in hand goes on a ring, behind `xs`. -/
theorem add_after (h : Shape a L) {es : List Nat} (hr : r ∈ L.roots)
    (hh : L.hand .entry = e :: es) (hs : L.ring r = xs ++ ys) :
    Shape (a.list_add_after e (xs.getLastD r)) ((L.setRing r (xs ++ e :: ys)).setLoose es) := by
  have hrings := h.rings
  rw [hh] at hrings
  refine h.setLinks (fun k' hk' => by simp [Lists.setLoose, Lists.setRing, hk']) ⟨rfl, rfl⟩ ?_
    fun y => ?_
  · rw [setLoose_roots, setRing_roots]
    simpa [Lists.setLoose, Lists.setRing] using hrings.addAfter hr hs
  · rw [setLoose_roots, setRing_roots]
    simp only [Lists.setLoose, Lists.setRing, Function.update_self, hh, List.mem_cons]
    constructor
    · rintro (hy | ⟨q, hq, hy⟩)
      · exact .inl (.inr hy)
      · by_cases hqr : q = r
        · subst hqr
          rw [Function.update_self] at hy
          by_cases hye : y = e
          · exact .inl (.inl hye)
          · exact .inr ⟨q, hq, by rw [hs]; simp at hy ⊢; tauto⟩
        · exact .inr ⟨q, hq, by rwa [Function.update_of_ne hqr] at hy⟩
    · rintro ((rfl | hy) | ⟨q, hq, hy⟩)
      · exact .inr ⟨r, hr, by simp⟩
      · exact .inl hy
      · by_cases hqr : q = r
        · subst hqr
          rw [hs] at hy
          exact .inr ⟨q, hq, by rw [Function.update_self]; simp at hy ⊢; tauto⟩
        · exact .inr ⟨q, hq, by rwa [Function.update_of_ne hqr]⟩

theorem free_root : FUNCT_ENTRY_FREE ∈ L.roots := Lists.mem_roots.mpr (.inl rfl)

theorem next_root (h : Shape a L) (hr : r ∈ L.roots) : a.links.next r = (L.ring r).headD r :=
  (h.rings.closed r hr).next_first

/-- The next entry of the ring of a root. -/
theorem next_at (h : Shape a L) (hr : r ∈ L.roots) (hs : L.ring r = xs ++ ys) :
    a.links.next (xs.getLastD r) = ys.headD r :=
  Ring.next_at (hs ▸ h.rings.closed r hr)

theorem next_after (h : Shape a L) (hr : r ∈ L.roots) (hs : L.ring r = xs ++ e :: ys) :
    a.links.next e = ys.headD r := by
  have hs' : L.ring r = (xs ++ [e]) ++ ys := by simp [hs]
  simpa using h.next_at hr hs'

/-- There is no idle entry and no memory for a new one. -/
theorem alloc_entry_none (h : Shape a L) :
    a.alloc_entry = none ↔ L.ring FUNCT_ENTRY_FREE = [] ∧
      (shmalloc_dn a.brk Kind.entry.size).1 = none := by
  have hn := h.next_root free_root
  rcases hl : L.ring FUNCT_ENTRY_FREE with _ | ⟨e, es⟩
  · rw [hl] at hn
    rcases hs : shmalloc_dn a.brk Kind.entry.size with ⟨_ | off, brk⟩ <;>
      simp [Arena.alloc_entry, hn, hs]
  · rw [hl] at hn
    have he : e ≠ FUNCT_ENTRY_FREE :=
      h.mem.free_ne_entry (h.ring_carved free_root (by simp [hl]))
    simp [Arena.alloc_entry, hn, he]

/-- An entry is taken in hand. -/
theorem alloc_entry (h : Shape a L) {a' : Arena} (ha : a.alloc_entry = some (e, a')) :
    Shape a' ((L.setRing FUNCT_ENTRY_FREE (L.ring FUNCT_ENTRY_FREE).tail).setLoose
      (e :: L.hand .entry)) := by
  have hn := h.next_root free_root
  rcases hl : L.ring FUNCT_ENTRY_FREE with _ | ⟨y, ys⟩
  · -- a new entry, below all other structures
    rw [hl] at hn
    simp only [Arena.alloc_entry, hn, List.headD_nil, ne_eq, not_true_eq_false, if_false] at ha
    rcases hs : shmalloc_dn a.brk Kind.entry.size with ⟨_ | off, brk⟩ <;> rw [hs] at ha
    · simp at ha
    · obtain ⟨rfl, rfl⟩ := by simpa using ha
      obtain ⟨hm, hlow, hbelow⟩ := h.mem.carve hs
      have hlow' : 272 ≤ off.toNat := hlow
      have hsize : Kind.entry.size = 40 := rfl
      have hfresh : ∀ q ∈ L.roots, off.toNat ∉ q :: L.ring q := by
        intro q hq hmem
        rcases List.mem_cons.mp hmem with he | hmem
        · rcases Lists.mem_roots.mp hq with rfl | ⟨s, hs, rfl⟩
          · unfold FUNCT_ENTRY_FREE at he; omega
          · have := hbelow _ _ (h.carved_thread hs)
            omega
        · have := hbelow _ _ (h.ring_carved hq hmem)
          omega
      have hloose : off.toNat ∉ L.hand .entry := fun hmem => by
        have := hbelow _ _ ((h.wheel _).mpr (.inl hmem))
        omega
      have hL : L.setRing FUNCT_ENTRY_FREE [] = L := by
        simp [Lists.setRing, ← hl]
      rw [List.tail_nil, hL]
      refine ⟨⟨hm.span, hm.nodup, hm.inside, hm.apart⟩, fun k' => ?_, fun k' hk' => ?_, ?_,
        fun y => ?_⟩
      · exact h.rep k'
      · simpa [Lists.setLoose, Arena.carve, Arena.list_init_entry, hk'] using h.whole k' hk'
      · rw [setLoose_roots]
        simpa [Lists.setLoose, Arena.carve, Arena.list_init_entry] using
          h.rings.init_loose hfresh hloose
      · rw [setLoose_roots]
        simp only [Lists.setLoose, Arena.carve, Arena.list_init_entry, Function.update_self,
          List.mem_cons, h.wheel y, or_assoc]
  · rw [hl] at hn
    have hy : y ≠ FUNCT_ENTRY_FREE :=
      h.mem.free_ne_entry (h.ring_carved free_root (by simp [hl]))
    simp only [Arena.alloc_entry, hn, List.headD_cons, ne_eq, hy, not_false_eq_true, if_true] at ha
    obtain ⟨rfl, rfl⟩ := by simpa using ha
    exact h.remove_entry free_root (hl.trans (List.nil_append _).symm)

end Shape

/-! ### Growth -/

/-- Structures were only added, from the top, and only of kinds there was memory for. -/
structure Grown (a a' : Arena) : Prop where
  bot : a.brk.shmem_bot ≤ a'.brk.shmem_bot
  top : a'.brk.shmem_top ≤ a.brk.shmem_top
  carved : ∀ k, (a.carved k).length ≤ (a'.carved k).length
  fresh : ∀ k, (a.carved k).length < (a'.carved k).length → (shmalloc_dn a.brk k.size).1 ≠ none

namespace Grown

variable {a a' a'' : Arena} {L : Lists} {k : Kind}

theorem of_eq (hb : a'.brk = a.brk) (hc : a'.carved = a.carved) : Grown a a' where
  bot := Int.le_of_eq (congrArg Brk.shmem_bot hb.symm)
  top := Int.le_of_eq (congrArg Brk.shmem_top hb)
  carved k := Nat.le_of_eq (congrArg List.length (congrFun hc.symm k))
  fresh k h := by rw [hc] at h; omega

theorem refl (a : Arena) : Grown a a := of_eq rfl rfl

theorem room (h : Grown a a') (k : Kind) (hr : (shmalloc_dn a'.brk k.size).1 ≠ none) :
    (shmalloc_dn a.brk k.size).1 ≠ none := shmalloc_dn_room h.bot h.top hr

theorem trans (h : Grown a a') (h' : Grown a' a'') : Grown a a'' where
  bot := Int.le_trans h.bot h'.bot
  top := Int.le_trans h'.top h.top
  carved k := Nat.le_trans (h.carved k) (h'.carved k)
  fresh k hk := by
    by_cases hlt : (a.carved k).length < (a'.carved k).length
    · exact h.fresh k hlt
    · exact h.room k (h'.fresh k (by have := h.carved k; omega))

/-- A new structure. -/
theorem carve (hs : a.brk.Span) {off : Int} {brk : Brk}
    (h : shmalloc_dn a.brk k.size = (some off, brk)) (x : Nat) : Grown a (a.carve k x brk) := by
  obtain ⟨h₁, h₂, -, h₃, h₄⟩ := shmalloc_dn_some hs (by omega) h
  refine ⟨?_, ?_, fun k' => ?_, fun k' hk' => ?_⟩
  · show a.brk.shmem_bot ≤ brk.shmem_bot
    omega
  · show brk.shmem_top ≤ a.brk.shmem_top
    omega
  · by_cases hk : k' = k
    · subst hk; simp [Arena.carve]
    · simp [Arena.carve, hk]
  · by_cases hk : k' = k
    · subst hk; simp [h]
    · simp [Arena.carve, hk] at hk'

theorem alloc (h : Shape a L) (k : Kind) : Grown a (a.alloc k).2 := by
  by_cases hf : a.Full k
  · rw [Shape.alloc_full hf]; exact .refl a
  · rcases h.alloc_cases hf with ⟨x, fs, -, ha⟩ | ⟨off, brk, -, hs, ha⟩
    · rw [ha]; exact .of_eq rfl rfl
    · rw [ha]; exact (carve h.mem.span hs _).trans (.of_eq rfl rfl)

theorem alloc_entry (h : Shape a L) {e : Nat} (ha : a.alloc_entry = some (e, a')) :
    Grown a a' := by
  unfold Arena.alloc_entry at ha
  simp only at ha
  split at ha
  · obtain ⟨rfl, rfl⟩ := by simpa using ha
    exact .of_eq rfl rfl
  · rcases hs : shmalloc_dn a.brk Kind.entry.size with ⟨_ | off, brk⟩ <;> rw [hs] at ha
    · simp at ha
    · obtain ⟨rfl, rfl⟩ := by simpa using ha
      exact (carve h.mem.span hs _).trans (.of_eq rfl rfl)

end Grown

/-- There is no room for a structure when all of its kind are in use and memory is out. -/
theorem Shape.full_iff {a : Arena} {L : Lists} {k : Kind} (h : Shape a L) (hk : k ≠ .entry)
    (hh : L.hand k = []) :
    a.Full k ↔ (a.carved k).length = (L.act k).length ∧ (shmalloc_dn a.brk k.size).1 = none := by
  have hlen := (h.whole k hk).length_eq
  have hhead : (a.pool k).free_ptr = (L.free k).headD 0 := (h.rep k).free_ptr_eq
  have hz : (a.pool k).free_ptr = 0 ↔ L.free k = [] := by
    rw [hhead]
    constructor
    · intro h0
      rcases hl : L.free k with _ | ⟨x, xs⟩
      · rfl
      · rw [hl] at h0
        exact absurd h0 ((h.rep k).spare.ne_zero x (by simp [hl]))
    · intro h0; rw [h0]; rfl
  rw [Arena.Full, hz, ← List.length_eq_zero_iff]
  simp only [hh, List.append_nil, List.length_append] at hlen
  refine and_congr_left fun _ => ?_
  omega

end RTS.Hal

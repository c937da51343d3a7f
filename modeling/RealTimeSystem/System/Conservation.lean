import RealTimeSystem.System.Boot

/-!
# System — nothing is lost, and functions are counted

What `Inv` says of the segment itself, in terms of its links: every structure ever allocated is on
exactly one list (`Conserved`), and the users of a function are the entries that call it
(`UsersExact`).
-/

namespace RTS.Hal

open RTS.Support RTS.Uspace

variable {σ : Type} {R : Rtapi σ}

/-! ### Structures are conserved -/

/-- The roots of the rings: the idle entries and the listed threads. -/
def Segment.Root (m : Segment) (r : Nat) : Prop :=
  r = FUNCT_ENTRY_FREE ∨ ∃ t, m.Listed .thread t ∧ r = t + THREAD_FUNCT_LIST

/-- Every structure ever allocated is on exactly one list, and no list meets itself. -/
structure Conserved (m : Segment) : Prop where
  lists : ∀ k, k ≠ .entry → ∃ act free, Chain (m.arena.pool k).next_ptr (m.arena.pool k).list_ptr act ∧
    Chain (m.arena.pool k).next_ptr (m.arena.pool k).free_ptr free ∧ (act ++ free).Nodup ∧
    ∀ x, x ∈ m.arena.carved k ↔ x ∈ act ++ free
  rings : ∃ ring : Nat → List Nat,
    (∀ r, m.Root r → Ring m.arena.links r (ring r) ∧
      Ring ⟨m.arena.links.prev, m.arena.links.next⟩ r (ring r).reverse ∧ (r :: ring r).Nodup) ∧
    (∀ r r', m.Root r → m.Root r' → r ≠ r' → List.Disjoint (r :: ring r) (r' :: ring r')) ∧
    ∀ e, e ∈ m.arena.carved .entry ↔ ∃ r, m.Root r ∧ e ∈ ring r

section
variable {m : Segment} {L : Lists}

theorem root_iff (h : Shape m.arena L) (hi : Idle L) {r : Nat} : m.Root r ↔ r ∈ L.roots := by
  rw [Lists.mem_roots, Segment.Root]
  refine or_congr Iff.rfl (exists_congr fun t => and_congr ?_ Iff.rfl)
  rw [h.listed, hi .thread]
  simp

theorem Shape.conserved (h : Shape m.arena L) (hi : Idle L) : Conserved m where
  lists k hk := by
    refine ⟨L.act k, L.free k, (h.rep k).used, (h.rep k).spare, (h.rep k).nodup, fun x => ?_⟩
    have := (h.whole k hk).mem_iff (a := x)
    rw [hi k, List.append_nil] at this
    exact this.symm
  rings := by
    refine ⟨L.ring, fun r hr => ?_, fun r r' hr hr' hne => ?_, fun e => ?_⟩
    · have hr := (root_iff h hi).mp hr
      exact ⟨h.rings.closed r hr, (h.rings.closed r hr).reverse, h.rings.nodup r hr⟩
    · exact h.rings.apart r ((root_iff h hi).mp hr) r' ((root_iff h hi).mp hr') hne
    · rw [h.wheel e, hi .entry]
      simp only [List.not_mem_nil, false_or, root_iff h hi]

end

/-- **Structures are conserved** in every reachable state, and no walk of an operation goes on for
ever. -/
theorem structures_conserved {s : State σ} (h : Reachable R s) :
    Conserved s.shm ∧ ∀ op e s', Op.run R op s = .error e s' → e ≠ .endless := by
  obtain ⟨L, hinv⟩ := h.inv
  refine ⟨hinv.good.shape.conserved hinv.idle, fun op e s' hrun => ?_⟩
  have hspec := Op.spec R hinv op
  unfold Wp at hspec
  rw [hrun] at hspec
  exact hspec.2

theorem structures_conserved_sample : Conserved scheduled.shm ∧
    ∀ op e s', Op.run (rtapi serving) op scheduled = .error e s' → e ≠ .endless :=
  structures_conserved scheduled_reachable

/-! ### Users are counted -/

/-- The users of a listed function are the entries on the rings of the listed threads that call it;
one that is not reentrant has at most one, and an entry calls a listed function. -/
def UsersExact (m : Segment) : Prop :=
  ∃ (threads : List Nat) (ring : Nat → List Nat),
    Chain (m.arena.pool .thread).next_ptr (m.arena.pool .thread).list_ptr threads ∧
    (∀ t ∈ threads, Ring m.arena.links (t + THREAD_FUNCT_LIST) (ring t) ∧
      t + THREAD_FUNCT_LIST ∉ ring t) ∧
    (∀ f, m.Listed .funct f →
      (m.funct f).users = ((threads.flatMap ring).countP fun e => (m.entry e).funct_ptr = f : Nat) ∧
      ((m.funct f).reentrant = 0 →
        ((threads.flatMap ring).countP fun e => (m.entry e).funct_ptr = f) ≤ 1)) ∧
    ∀ e ∈ threads.flatMap ring, m.Listed .funct (m.entry e).funct_ptr

theorem entries_view (m : Segment) (L : Lists) :
    (view m L).entries =
      tab m.entry ((L.act .thread).flatMap fun t => L.ring (t + THREAD_FUNCT_LIST)) := by
  simp [Registry.entries, view, tab, List.flatMap_map, List.map_flatMap]

theorem Good.usersExact {m : Segment} {L : Lists} (h : Good m L) : UsersExact m := by
  have hcalls : ∀ f, calls f (view m L).entries =
      (((L.act .thread).flatMap fun t => L.ring (t + THREAD_FUNCT_LIST)).countP
        fun e => (m.entry e).funct_ptr = f : Nat) := fun f => by
    rw [entries_view, calls, tab, List.countP_map]
    rfl
  refine ⟨L.act .thread, fun t => L.ring (t + THREAD_FUNCT_LIST), (h.shape.rep .thread).used,
    fun t ht => ?_, fun f hf => ?_, fun e he => ?_⟩
  · have hr : t + THREAD_FUNCT_LIST ∈ L.roots := Shape.thread_root (.inl ht)
    exact ⟨h.shape.rings.closed _ hr, (List.nodup_cons.mp (h.shape.rings.nodup _ hr)).1⟩
  · have hm : (f, m.funct f) ∈ (view m L).functs := mem_tab.mpr ⟨h.shape.listed.mp hf, rfl⟩
    have hu : (m.funct f).users = _ := (h.sound.counted _ hm).trans (hcalls f)
    refine ⟨hu, fun hre => ?_⟩
    have := h.sound.single _ hm hre
    simp only [hu] at this
    omega
  · have hm : (e, m.entry e) ∈ (view m L).entries := by
      rw [entries_view]
      exact mem_tab.mpr ⟨he, rfl⟩
    obtain ⟨p, hp, hpe, -⟩ := h.sound.linked _ hm
    rw [h.shape.listed]
    have := (mem_tab.mp hp).1
    rwa [hpe] at this

/-- **Usage counts are exact** in every reachable state. -/
theorem users_exact {s : State σ} (h : Reachable R s) : UsersExact s.shm :=
  have ⟨_, hinv⟩ := h.inv
  hinv.good.usersExact

theorem users_exact_sample : UsersExact scheduled.shm ∧
    ∃ f, scheduled.shm.halpr_find_funct_by_name (lit ['f']) = some f ∧
      (scheduled.shm.funct f).users = 1 :=
  ⟨users_exact scheduled_reachable,
    (scheduled.shm.halpr_find_funct_by_name (lit ['f'])).getD 0, by decide +kernel,
    by decide +kernel⟩

end RTS.Hal

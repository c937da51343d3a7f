import RealTimeSystem.Hal.TwinArenas

/-!
# HAL — two segments with different memory

Two segments are `Twin` when their arenas are and what HAL reads of their structures is the same.

A new structure is not wholly overwritten by `alloc_*_struct`: a component keeps its `ready`, which
`hal_init` sets; a parameter keeps its `oldname`, which nothing sets; and a thread keeps its
`comp_id`, which `hal_create_thread` sets last.  `Bond` says where the last two are not the same.

Every function of `Segment.lean` does the same in both segments.
-/

namespace RTS

/-! ### What HAL reads -/

def Comp.known (c : Comp) : Int × CompType × Int × Addr × CStr :=
  (c.comp_id, c.type, c.ready, c.shmem_base, c.name)

def Pin.known (p : Pin) : Nat × CStr := (p.oldname, p.name)

def Param.known (p : Param) : Nat × CStr := (p.owner_ptr, p.name)

def Thread.known (t : Thread) : Int × Int × CStr := (t.uses_fp, t.task_id, t.name)

end RTS

namespace RTS.Hal

open RTS.Support

/-- HAL reads the same of the two structures at `x`. -/
def Alike (m m' : Segment) : Kind → Nat → Prop
  | .comp, x => (m'.comp x).known = (m.comp x).known
  | .pin, x => (m'.pin x).known = (m.pin x).known ∧ (m.pin x).oldname = 0
  | .param, x => (m'.param x).known = (m.param x).known
  | .funct, x => m'.funct x = m.funct x
  | .thread, x => (m'.thread x).known = (m.thread x).known
  | .entry, x => m'.entry x = m.entry x ∧
      ((m.entry x).funct_ptr ≠ 0 → (m.entry x).funct_ptr ∈ m.arena.carved .funct)
  | .oldname, _ => True

/-- The fields of threads and parameters that may differ: `comp_id` in the one segment and in the
other, and `oldname` in the other, which is 0 in the one.  `base` is where both are mapped. -/
structure Bond where
  base : Addr
  cid : Nat → Int
  cid' : Nat → Int
  old : Nat → Nat

/-- The thread `x` has the component `id` in both. -/
def Bond.set (b : Bond) (x : Nat) (id : Int) : Bond :=
  { b with cid := Function.update b.cid x id, cid' := Function.update b.cid' x id }

/-- What is the same of a thread in `b` is the same in `b'`. -/
structure Bond.Finer (b b' : Bond) : Prop where
  old : b'.old = b.old
  same : ∀ x, b.cid' x = b.cid x → b'.cid' x = b'.cid x

theorem Bond.Finer.refl (b : Bond) : b.Finer b := ⟨rfl, fun _ => id⟩

theorem Bond.set_same (b : Bond) (x : Nat) (id : Int) :
    (b.set x id).cid' x = (b.set x id).cid x := by
  simp only [Bond.set, Function.update_self]

theorem Bond.finer_set (b : Bond) (x : Nat) (id : Int) : b.Finer (b.set x id) := by
  refine ⟨rfl, fun y hy => ?_⟩
  by_cases e : y = x
  · rw [e, b.set_same]
  · simp only [Bond.set, Function.update_of_ne e]
    exact hy

/-- The two segments are the same to HAL.  `odd` is a structure that is being made. -/
structure Twin (b : Bond) (ring : Nat → List Nat) (loose : List Nat) (odd : Option (Kind × Nat))
    (m m' : Segment) : Prop where
  arena : m.arena.Twin ring loose m'.arena
  mutex : m'.mutex = m.mutex
  lock : m'.lock = m.lock
  state : m'.state = m.state
  threads_running : m'.threads_running = m.threads_running
  init_pid : m'.init_pid = m.init_pid
  error_code : m'.error_code = m.error_code
  same : ∀ k, ∀ x ∈ m.arena.carved k, odd ≠ some (k, x) → Alike m m' k x
  cid : ∀ t, (m.thread t).comp_id = b.cid t ∧ (m'.thread t).comp_id = b.cid' t
  old : ∀ x, (m.param x).oldname = 0 ∧ (m'.param x).oldname = b.old x
  /-- a structure is given back as an old name only if a parameter has one -/
  wild : (m'.arena.pool .oldname).free_ptr ≠ 0 → ∃ x ∈ m.arena.carved .param, b.old x ≠ 0

/-- Between two functions of the segment: no entry is off the rings and no structure unfinished. -/
def Twins (b : Bond) (m m' : Segment) : Prop := ∃ ring, Twin b ring [] none m m'

namespace Twin

variable {b : Bond} {ring ring' : Nat → List Nat} {loose loose' : List Nat}
  {odd : Option (Kind × Nat)} {m m' : Segment} {a a' : Arena} {k : Kind} {x : Nat}

/-- New links; no structure is new. -/
theorem relink (h : Twin b ring loose odd m m') (ha : a.Twin ring' loose' a')
    (hc : a.carved = m.arena.carved) (ho : a'.pool .oldname = m'.arena.pool .oldname) :
    Twin b ring' loose' odd { m with arena := a } { m' with arena := a' } where
  arena := ha
  mutex := h.mutex
  lock := h.lock
  state := h.state
  threads_running := h.threads_running
  init_pid := h.init_pid
  error_code := h.error_code
  same k x hx hne := by
    have hs := h.same k x (hc ▸ hx) hne
    cases k
    case entry => exact ⟨hs.1, fun h₀ => hc ▸ hs.2 h₀⟩
    all_goals exact hs
  cid := h.cid
  old := h.old
  wild h₀ := hc ▸ h.wild (ho ▸ h₀)

theorem setPool (h : Twin b ring loose odd m m') (hk : Arena.Queued k) {p p' : Pool}
    (hp : p.Agree (m.arena.carved k) p') :
    Twin b ring loose odd (m.onArena fun a => a.setPool k p) (m'.onArena fun a => a.setPool k p') :=
  h.relink (h.arena.setPool fun _ => hp) rfl (Function.update_of_ne (Ne.symm hk.1) ..)

/-- A new structure, which nothing is known of. -/
theorem gain (h : Twin b ring loose none m m') (ha : a.Twin ring' loose' a')
    (hg : Arena.Twin.Gains k x m.arena a) (ho : a'.pool .oldname = m'.arena.pool .oldname) :
    Twin b ring' loose' (some (k, x)) { m with arena := a } { m' with arena := a' } where
  arena := ha
  mutex := h.mutex
  lock := h.lock
  state := h.state
  threads_running := h.threads_running
  init_pid := h.init_pid
  error_code := h.error_code
  same k' y hy hne := by
    have hkept : ∀ k' y, y ∈ m.arena.carved k' → y ∈ a.carved k' := fun k' y hy => by
      by_cases e : k' = k
      · subst e
        exact hg.kept y hy
      · exact hg.other k' e ▸ hy
    have hy' : y ∈ m.arena.carved k' := by
      by_cases e : k' = k
      · subst e
        exact (hg.only y hy).resolve_left fun e => hne (by rw [e])
      · exact hg.other k' e ▸ hy
    have hs := h.same k' y hy' nofun
    cases k'
    case entry => exact ⟨hs.1, fun h₀ => hkept _ _ (hs.2 h₀)⟩
    all_goals exact hs
  cid := h.cid
  old := h.old
  wild h₀ := by
    obtain ⟨p, hp, hold⟩ := h.wild (ho ▸ h₀)
    refine ⟨p, ?_, hold⟩
    show p ∈ a.carved .param
    by_cases e : Kind.param = k
    · subst e
      exact hg.kept p hp
    · exact hg.other _ e ▸ hp

/-- A structure is written; it was sound, or is so now. -/
theorem write (h : Twin b ring loose odd m m') {n n' : Segment} (k : Kind) (x : Nat)
    (ho : odd = none ∨ odd = some (k, x)) (harena : n.arena = m.arena ∧ n'.arena = m'.arena)
    (hflags : (n'.mutex = n.mutex ∧ n'.lock = n.lock ∧ n'.state = n.state) ∧
      n'.threads_running = n.threads_running ∧ n'.init_pid = n.init_pid ∧
      n'.error_code = n.error_code)
    (hother : ∀ k' y, (k', y) ≠ (k, x) → Alike m m' k' y → Alike n n' k' y) (hs : Alike n n' k x)
    (hcid : ∀ t, (n.thread t).comp_id = (m.thread t).comp_id ∧
      (n'.thread t).comp_id = (m'.thread t).comp_id)
    (hold : ∀ x, (n.param x).oldname = (m.param x).oldname ∧
      (n'.param x).oldname = (m'.param x).oldname) :
    Twin b ring loose none n n' where
  arena := by rw [harena.1, harena.2]; exact h.arena
  mutex := hflags.1.1
  lock := hflags.1.2.1
  state := hflags.1.2.2
  threads_running := hflags.2.1
  init_pid := hflags.2.2.1
  error_code := hflags.2.2.2
  same k' y hy _ := by
    by_cases e : (k', y) = (k, x)
    · cases e
      exact hs
    · rw [harena.1] at hy
      refine hother k' y e (h.same k' y hy ?_)
      rcases ho with rfl | rfl
      · nofun
      · exact fun e' => e (Option.some.inj e').symm
  cid t := by rw [(hcid t).1, (hcid t).2]; exact h.cid t
  old x := by rw [(hold x).1, (hold x).2]; exact h.old x
  wild := by rw [harena.1, harena.2]; exact h.wild

theorem flags (h : Twin b ring loose odd m m') : (m'.mutex = m.mutex ∧ m'.lock = m.lock ∧
    m'.state = m.state) ∧ m'.threads_running = m.threads_running ∧ m'.init_pid = m.init_pid ∧
    m'.error_code = m.error_code :=
  ⟨⟨h.mutex, h.lock, h.state⟩, h.threads_running, h.init_pid, h.error_code⟩

theorem setComp (h : Twin b ring loose odd m m') (ho : odd = none ∨ odd = some (.comp, x))
    (c c' : Comp) (hc : c'.known = c.known) :
    Twin b ring loose none (m.setComp x c) (m'.setComp x c') := by
  refine h.write .comp x ho ⟨rfl, rfl⟩ h.flags (fun k' y hne hs => ?_) ?_ (fun _ => ⟨rfl, rfl⟩)
    fun _ => ⟨rfl, rfl⟩
  · cases k'
    case comp =>
      have hy : y ≠ x := fun e => hne (by rw [e])
      simpa [Alike, Segment.setComp, hy] using hs
    all_goals exact hs
  · simpa [Alike, Segment.setComp] using hc

/-- A component that is not finished yet. -/
theorem setComp_odd (h : Twin b ring loose (some (.comp, x)) m m') (c c' : Comp) :
    Twin b ring loose (some (.comp, x)) (m.setComp x c) (m'.setComp x c') :=
  { h with
    same := fun k y hy hne => by
      have hs := h.same k y hy hne
      cases k
      case comp =>
        have hy : y ≠ x := fun e => hne (by rw [e])
        simpa [Alike, Segment.setComp, hy] using hs
      all_goals exact hs }

theorem setPin (h : Twin b ring loose odd m m') (ho : odd = none ∨ odd = some (.pin, x))
    (p p' : Pin) (hp : p'.known = p.known) (h₀ : p.oldname = 0) :
    Twin b ring loose none (m.setPin x p) (m'.setPin x p') := by
  refine h.write .pin x ho ⟨rfl, rfl⟩ h.flags (fun k' y hne hs => ?_) ?_ (fun _ => ⟨rfl, rfl⟩)
    fun _ => ⟨rfl, rfl⟩
  · cases k'
    case pin =>
      have hy : y ≠ x := fun e => hne (by rw [e])
      simpa [Alike, Segment.setPin, hy] using hs
    all_goals exact hs
  · simpa [Alike, Segment.setPin] using ⟨hp, h₀⟩

theorem setParam (h : Twin b ring loose odd m m') (ho : odd = none ∨ odd = some (.param, x))
    (p p' : Param) (hp : p'.known = p.known) (hold : p.oldname = (m.param x).oldname)
    (hold' : p'.oldname = (m'.param x).oldname) :
    Twin b ring loose none (m.setParam x p) (m'.setParam x p') := by
  refine h.write .param x ho ⟨rfl, rfl⟩ h.flags (fun k' y hne hs => ?_) ?_ (fun _ => ⟨rfl, rfl⟩)
    fun y => ?_
  · cases k'
    case param =>
      have hy : y ≠ x := fun e => hne (by rw [e])
      simpa [Alike, Segment.setParam, hy] using hs
    all_goals exact hs
  · simpa [Alike, Segment.setParam] using hp
  · by_cases e : y = x
    · subst e
      simpa [Segment.setParam] using ⟨hold, hold'⟩
    · simp [Segment.setParam, e]

theorem setFunct (h : Twin b ring loose odd m m') (ho : odd = none ∨ odd = some (.funct, x))
    {f f' : Funct} (hf : f' = f) : Twin b ring loose none (m.setFunct x f) (m'.setFunct x f') := by
  refine h.write .funct x ho ⟨rfl, rfl⟩ h.flags (fun k' y hne hs => ?_) ?_ (fun _ => ⟨rfl, rfl⟩)
    fun _ => ⟨rfl, rfl⟩
  · cases k'
    case funct =>
      have hy : y ≠ x := fun e => hne (by rw [e])
      simpa [Alike, Segment.setFunct, hy] using hs
    all_goals exact hs
  · simpa [Alike, Segment.setFunct] using hf

theorem setThread (h : Twin b ring loose odd m m') (ho : odd = none ∨ odd = some (.thread, x))
    (t t' : Thread) (ht : t'.known = t.known) (hid : t.comp_id = (m.thread x).comp_id)
    (hid' : t'.comp_id = (m'.thread x).comp_id) :
    Twin b ring loose none (m.setThread x t) (m'.setThread x t') := by
  refine h.write .thread x ho ⟨rfl, rfl⟩ h.flags (fun k' y hne hs => ?_) ?_ (fun y => ?_)
    fun _ => ⟨rfl, rfl⟩
  · cases k'
    case thread =>
      have hy : y ≠ x := fun e => hne (by rw [e])
      simpa [Alike, Segment.setThread, hy] using hs
    all_goals exact hs
  · simpa [Alike, Segment.setThread] using ht
  · by_cases e : y = x
    · subst e
      simpa [Segment.setThread] using ⟨hid, hid'⟩
    · simp [Segment.setThread, e]

/-- The component of a thread is set, to the same id in both. -/
theorem setThread_comp (h : Twin b ring loose none m m') (x : Nat) (id : Int) :
    Twin (b.set x id) ring loose none (m.setThread x { m.thread x with comp_id := id })
      (m'.setThread x { m'.thread x with comp_id := id }) where
  arena := h.arena
  mutex := h.mutex
  lock := h.lock
  state := h.state
  threads_running := h.threads_running
  init_pid := h.init_pid
  error_code := h.error_code
  same k y hy hne := by
    have hs := h.same k y hy hne
    cases k
    case thread =>
      by_cases e : y = x
      · subst e
        simpa [Alike, Segment.setThread, Thread.known] using hs
      · simpa [Alike, Segment.setThread, e] using hs
    all_goals exact hs
  cid y := by
    by_cases e : y = x
    · subst e
      simp [Segment.setThread, Bond.set]
    · simpa [Segment.setThread, Bond.set, e] using h.cid y
  old := h.old
  wild := h.wild

theorem setEntry (h : Twin b ring loose odd m m') (ho : odd = none ∨ odd = some (.entry, x))
    {e e' : Entry} (he : e' = e)
    (hf : e.funct_ptr ≠ 0 → e.funct_ptr ∈ m.arena.carved .funct) :
    Twin b ring loose none (m.setEntry x e) (m'.setEntry x e') := by
  refine h.write .entry x ho ⟨rfl, rfl⟩ h.flags (fun k' y hne hs => ?_) ?_ (fun _ => ⟨rfl, rfl⟩)
    fun _ => ⟨rfl, rfl⟩
  · cases k'
    case entry =>
      have hy : y ≠ x := fun e => hne (by rw [e])
      simpa [Alike, Segment.setEntry, hy] using hs
    all_goals exact hs
  · simpa [Alike, Segment.setEntry] using ⟨he, hf⟩

/-- Pointer cells and values are nothing HAL decides by. -/
theorem setCell (h : Twin b ring loose odd m m') (c : Nat) (v v' : Addr) :
    Twin b ring loose odd (m.setCell c v) (m'.setCell c v') :=
  { h with same := h.same }

theorem setData (h : Twin b ring loose odd m m') (p p' : Addr) (v : Int) :
    Twin b ring loose odd (m.setData p v) (m'.setData p' v) :=
  { h with same := h.same }

end Twin

end RTS.Hal

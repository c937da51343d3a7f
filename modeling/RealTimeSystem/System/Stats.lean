import Mathlib.Logic.Relation
import RealTimeSystem.Hal.Keeping
import RealTimeSystem.System.Initialising

/-!
# System — what `hal_get_stats` reports

The counts come from the lists, the free space from `shmem_avail`.  Both allocators compute that
field when they grant a request, and `init_hal_data`, which sets the two bounds, does not set it.

* `Served` — all that happens to the allocator along an operation is that it serves requests.
* **`accurate_iff`** — the report is accurate if and only if a request was granted since HAL came
  up.
-/

namespace RTS.Hal

open RTS.Support RTS.Uspace

variable {σ : Type} {R : Rtapi σ} {s s' s₀ s₁ : State σ} {L : Lists}

/-! ### The allocator over a run -/

/-- The free space is computed from the two bounds. -/
def Brk.Reckoned (b : Brk) : Prop := b.shmem_avail = toInt32 (b.shmem_top - b.shmem_bot)

theorem serve_reckoned {b b' : Brk} {r : Request} {off : Int} (h : serve b r = (some off, b')) :
    b'.Reckoned := by
  cases r <;> simp only [serve, shmalloc_up, shmalloc_dn] at h <;> split at h <;> cases h <;> rfl

theorem Brk.Reckoned.exact {b : Brk} (h : b.Reckoned) (hb : b.Span) :
    b.shmem_avail = b.shmem_top - b.shmem_bot := by
  have h₀ : (0 : Int) ≤ HAL_DATA_SIZE := by decide
  obtain ⟨lo, mid, hi⟩ := hb
  rw [h, toInt32_of_range (by omega) (by omega)]

/-- The allocator that `init_hal_data` leaves has not computed it. -/
theorem Brk.init_not_reckoned : ¬ (Brk.init {}).Reckoned := by
  unfold Brk.Reckoned Brk.init
  decide

/-- `b'` comes from `b` by requests. -/
def Served : Brk → Brk → Prop := Relation.ReflTransGen fun b b' => ∃ r, b' = (serve b r).2

/-- Either every request was refused, or the last one granted computed the free space. -/
theorem Served.eq_or_reckoned {b b' : Brk} (h : Served b b') : b' = b ∨ b'.Reckoned := by
  induction h with
  | refl => exact .inl rfl
  | @tail c _ _ hr ih =>
      obtain ⟨r, rfl⟩ := hr
      rcases hs : serve c r with ⟨_ | off, c'⟩
      · rw [serve_none hs]
        exact ih
      · exact .inr (serve_reckoned hs)

theorem Served.reckoned {b b' : Brk} (h : Served b b') (hb : b.Reckoned) : b'.Reckoned :=
  h.eq_or_reckoned.elim (fun e => e ▸ hb) id

theorem Served.keeping : Keeping fun m m' => Served m.arena.brk m'.arena.brk where
  refl _ := .refl
  trans := .trans
  same h := by rw [h.1]; exact .refl
  up _ size := .single ⟨.up size, rfl⟩
  dn _ size := .single ⟨.dn size, rfl⟩

/-- Once the library is initialised, the allocator serves requests only. -/
def Serving (s s' : State σ) : Prop :=
  s.lib_mem_id ≠ 0 → s'.lib_mem_id = s.lib_mem_id ∧ Served s.shm.arena.brk s'.shm.arena.brk

instance : Std.Refl (Serving (σ := σ)) where
  refl _ _ := ⟨rfl, .refl⟩

instance : IsTrans (State σ) Serving where
  trans _ _ _ h h' hid := by
    obtain ⟨e, hb⟩ := h hid
    obtain ⟨e', hb'⟩ := h' (by rwa [e])
    exact ⟨e'.trans e, hb.trans hb'⟩

theorem Serving.keeps : Keeps R (fun m m' => Served m.arena.brk m'.arena.brk) Serving where
  segment := Served.keeping
  put _ _ _ _ h _ := ⟨rfl, h⟩
  strike _ _ _ := ⟨rfl, .refl⟩
  step _ _ _ _ := ⟨rfl, .refl⟩

theorem Serving.op (op : Op) : Along Serving (op.run R) := by
  refine Serving.keeps.op (fun s hid => ?_)
    (Serving.keeps.free_thread_struct fun _ => .refl) op fun _ _ _ _ => .refl
  exact .of_forall (fun _ _ hne => absurd hid hne) fun _ _ hne => absurd hid hne

theorem Boots.brk (h : Boots R s₀ s₁) : s₁.shm.arena.brk = Brk.init {} := by
  rcases initialises_shm (show Initialises R s₀ 0 s₁ from h.up) with ⟨-, pid, hs⟩ | ⟨hne, -⟩
  · rw [hs, h.zero]
    rfl
  · exact absurd rfl hne

/-- **The allocator of a run of HAL** has served requests, and nothing else was done to it. -/
theorem Runs.served {allowed : State σ → Op → Prop} (hr : Runs R allowed s₀ s)
    (h : ∃ L, Inv s₀ L) : Served s₀.shm.arena.brk s.shm.arena.brk := by
  induction hr with
  | start => exact .refl
  | op op hr _ _ hrun ih =>
      obtain ⟨L, hinv⟩ := hr.inv h
      exact ih.trans ((Serving.op op).of_ok hrun hinv.mem_id).2
  | cycle code t hr ht hrun ih =>
      obtain ⟨L, hinv⟩ := hr.inv h
      obtain ⟨cs, data, rt, rfl⟩ := cycle_ran hinv (hinv.good.shape.listed.mp ht) hrun
      exact ih

/-! ### The report -/

/-- The list in use has `n` structures. -/
def Segment.Length (m : Segment) (k : Kind) (n : Nat) : Prop :=
  ∃ xs, Chain (m.arena.pool k).next_ptr (m.arena.pool k).list_ptr xs ∧ xs.length = n

/-- The counts are the lengths of the five lists. -/
structure Segment.Counted (m : Segment) (stats : HalStats) : Prop where
  comp : m.Length .comp stats.comp_count
  pin : m.Length .pin stats.pin_count
  param : m.Length .param stats.param_count
  funct : m.Length .funct stats.funct_count
  thread : m.Length .thread stats.thread_count

/-- `hal_get_stats` succeeds, counts the lists and reports the bytes between the two bounds. -/
def Accurate (s : State σ) : Prop :=
  ∃ stats s', hal_get_stats true s = .ok (0, some stats) s' ∧ s.shm.Counted stats ∧
    stats.shmem_avail = s.shm.arena.brk.shmem_top - s.shm.arena.brk.shmem_bot

/-- The allocator is not as `init_hal_data` left it: a request was granted. -/
def Segment.Tapped (m : Segment) : Prop := m.arena.brk ≠ Brk.init {}

theorem Shape.length {m : Segment} (h : Shape m.arena L) (k : Kind) :
    m.Length k (L.act k).length := ⟨_, (h.rep k).used, rfl⟩

/-- **The counts** are right in every state, whatever was allocated. -/
theorem hal_get_stats_counted (h : Inv s L) :
    Returns (hal_get_stats true) s fun r _ => ∃ stats, r = (0, some stats) ∧ s.shm.Counted stats ∧
      stats.shmem_avail = s.shm.arena.brk.shmem_avail := by
  refine (hal_get_stats_spec h true).mono fun r s' hs => ?_
  rcases hs with ⟨h₀, -⟩ | ⟨-, -, hr⟩
  · cases h₀
  refine ⟨_, hr, ⟨?_, ?_, ?_, ?_, ?_⟩, rfl⟩ <;> simpa [view, tab] using h.good.shape.length _

theorem Inv.accurate_avail (h : Inv s L) :
    Accurate s ↔ s.shm.arena.brk.shmem_avail =
      s.shm.arena.brk.shmem_top - s.shm.arena.brk.shmem_bot := by
  obtain ⟨r, s', hrun, stats, rfl, hcount, havail⟩ := (hal_get_stats_counted h).exists_ok
  constructor
  · rintro ⟨stats', s'', hrun', -, he⟩
    rw [hrun] at hrun'
    cases hrun'
    exact havail.symm.trans he
  · intro he
    exact ⟨stats, s', hrun, hcount, havail.trans he⟩

/-- An operation with a sane size, and not `hal_app_main`, which sets the bounds once more. -/
def Invocation.Plain : Invocation → Prop
  | .op o => o.Sane
  | .hal_app_main => False

theorem Invoked.runs (hr : Invoked R (fun _ c => c.Plain) s₀ s) : Runs R (fun _ _ => True) s₀ s := by
  induction hr with
  | start => exact .start
  | call c _ hc hrun ih =>
      cases c with
      | op op => exact .op op ih hc trivial hrun
      | hal_app_main => exact hc.elim
  | cycle code t _ ht hrun ih => exact .cycle code t ih ht hrun

/-- **The report is accurate** if and only if a request was granted since HAL came up. -/
theorem accurate_iff (hb : Boots R s₀ s₁) (hr : Invoked R (fun _ c => c.Plain) s₁ s) :
    Accurate s ↔ s.shm.Tapped := by
  replace hr := hr.runs
  obtain ⟨L, hinv⟩ := hr.inv ⟨_, hb.inv⟩
  have hspan := hinv.good.shape.mem.span
  have hserved := hr.served ⟨_, hb.inv⟩
  rw [hb.brk] at hserved
  rw [hinv.accurate_avail]
  constructor
  · intro he htap
    rw [htap] at he
    exact absurd he (by decide)
  · intro htap
    exact (hserved.eq_or_reckoned.resolve_left htap).exact hspan

theorem accurate_iff_scheduled : Invoked (rtapi serving) (fun _ c => c.Plain) started scheduled ∧
    Accurate scheduled := by
  have hplay : Playable (rtapi serving) (fun _ _ => True) schedulingOps started :=
    ⟨trivial, trivial, by decide +kernel, trivial, trivial, by decide +kernel,
      trivial, trivial, by decide +kernel, trivial, trivial, by decide +kernel, trivial⟩
  have hr : Invoked (rtapi serving) (fun _ c => c.Plain) started scheduled :=
    (hplay.runs .start).invoked fun _ _ hsane _ => hsane
  exact ⟨hr, (accurate_iff started_starts.boots hr).mpr (show _ ≠ _ by decide +kernel)⟩

/-- The report of another number. -/
theorem not_accurate (avail : Int) (h : ((result (hal_get_stats true) s).bind Prod.snd).map
      HalStats.shmem_avail = some avail)
    (hne : avail ≠ s.shm.arena.brk.shmem_top - s.shm.arena.brk.shmem_bot) : ¬ Accurate s := by
  rintro ⟨stats, s', hrun, -, he⟩
  have havail : stats.shmem_avail = avail := by simpa [result, hrun] using h
  exact hne (havail ▸ he)

/-- Initialised again when a request has been granted. -/
def restarted : State Machine :=
  after (Invocation.hal_app_main.run (rtapi serving)) (played (rtapi serving) [.hal_malloc 16] started)

/-- A negative size. -/
def overdrawn : State Machine := played (rtapi serving) [.hal_malloc (-2147483648)] started

/-- Right after `hal_app_main` the report says 0 and not 1048304.  Initialised again, HAL reports the
free space of before; and a negative size takes the difference of the bounds out of the range of an
`int`. -/
theorem started_inaccurate :
    (Reachable (rtapi serving) started ∧
      started.shm.arena.brk.shmem_top - started.shm.arena.brk.shmem_bot = 1048304 ∧
      ¬ Accurate started) ∧
    (Invoked (rtapi serving) (fun _ _ => True) started restarted ∧ restarted.shm.Tapped ∧
      ¬ Accurate restarted) ∧
    Invoked (rtapi serving) (fun _ _ => True) started overdrawn ∧ overdrawn.shm.Tapped ∧
      ¬ Accurate overdrawn := by
  refine ⟨⟨started_starts.reachable, by decide +kernel, ?_⟩, ⟨?_, show _ ≠ _ by decide +kernel, ?_⟩,
    ?_, show _ ≠ _ by decide +kernel, ?_⟩
  · exact not_accurate 0 (by decide +kernel) (by decide +kernel)
  · exact .call .hal_app_main (.call (.op (.hal_malloc 16)) .start trivial
      (after_eq (by decide +kernel))) trivial (after_eq (by decide +kernel))
  · exact not_accurate 1048288 (by decide +kernel) (by decide +kernel)
  · exact .call (.op (.hal_malloc (-2147483648))) .start trivial (after_eq (by decide +kernel))
  · exact not_accurate (-2146435344) (by decide +kernel) (by decide +kernel)

/-- A granted request shows in the allocator, and it shows from then on. -/
theorem Runs.tapped {allowed : State σ → Op → Prop} (hr : Runs R allowed s₁ s)
    (h : Reachable R s₁) (ht : s₁.shm.Tapped) : s.shm.Tapped := by
  obtain ⟨s₀, s₀', hb, hr₀⟩ := h
  have hserved := hr₀.served ⟨_, hb.inv⟩
  rw [hb.brk] at hserved
  have hreckoned := hserved.eq_or_reckoned.resolve_left ht
  intro e
  have hend : (Brk.init {}).Reckoned := e ▸ (hr.served (hr₀.inv ⟨_, hb.inv⟩)).reckoned hreckoned
  exact Brk.init_not_reckoned hend

theorem hal_malloc_tapped (h : Inv s L) {size off : Int}
    (hgrant : (shmalloc_up s.shm.arena.brk size).1 = some off) :
    Returns (hal_malloc size) s fun r s' => r = some off ∧ s'.shm.Tapped := by
  refine (hal_malloc_spec h size).mono fun r s' ⟨hr, hs⟩ => ⟨hr.trans hgrant, ?_⟩
  have hserve : serve s.shm.arena.brk (.up size) =
      (some off, (shmalloc_up s.shm.arena.brk size).2) := Prod.ext hgrant rfl
  have hreckoned : s'.shm.arena.brk.Reckoned := by
    rw [hs]
    exact serve_reckoned hserve
  intro e
  exact Brk.init_not_reckoned (e ▸ hreckoned)

end RTS.Hal

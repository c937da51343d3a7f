import RealTimeSystem.System.Forgetting
import RealTimeSystem.System.Initialising

/-!
# System — HAL is started on what a process left

A process that crashed leaves its segment behind, and the next `hal_app_main` attaches to it.
`init_hal_data` writes the lists it begins with, but not those of the pins, and not `shmem_avail`;
and `alloc_param_struct` does not write `oldname`.

* **`sameOn_of_clean`**: on two segments in which these are zero every sequence of operations returns
  the same and registers the same names.  One of the two may be zero-filled.
* `reset_of_sameOn`: where the pin list or `shmem_avail` is not zero, `hal_get_stats` shows it.
* `sameOn_fails`: the pin of a crashed process is still registered.
-/

namespace RTS.Hal

open RTS.Support RTS.Uspace

/-! ### What initialising leaves -/

section
variable {σ : Type} {R : Rtapi σ} {m m' : Segment} {s s' t t' : State σ} {k : Kind} {pid : Int}

/-- What `init_hal_data` does not write is zero. -/
structure Segment.Reset (m : Segment) : Prop where
  pins : (m.arena.pool .pin).list_ptr = 0
  idle_pins : (m.arena.pool .pin).free_ptr = 0
  avail : m.arena.brk.shmem_avail = 0

/-- The lists are empty then. -/
theorem Segment.Reset.lists (h : m.Reset) (pid : Int) (hk : k ≠ .oldname) :
    ((m.initialised pid).arena.pool k).list_ptr = 0 ∧
      ((m.initialised pid).arena.pool k).free_ptr = 0 := by
  cases k
  case pin => exact ⟨h.pins, h.idle_pins⟩
  case oldname => exact absurd rfl hk
  all_goals exact ⟨rfl, rfl⟩

theorem Segment.reset_zero : ({} : Segment).Reset := ⟨rfl, rfl, rfl⟩

theorem Shape.zero : Shape (({} : Segment).initialised pid).arena .empty :=
  Shape.empty (a := { pool := _, brk := _ }) (Brk.init_span _) (fun k => by cases k <;> rfl)
    (fun k => by cases k <;> rfl) fun _ => rfl

/-- What is left in the segment, for a new process; nothing of it is allocated. -/
def Segment.vacant (m : Segment) : Segment :=
  { m with arena := { m.arena with carved := fun _ => [] } }

/-- Where a zero-filled segment and `m` may differ. -/
def Segment.bond (m : Segment) (base : Addr) : Bond :=
  ⟨base, fun _ => 0, fun x => (m.thread x).comp_id, fun x => (m.param x).oldname⟩

/-- A zero-filled segment and another are the same once they are initialised. -/
theorem Segment.Reset.twins (h : m.Reset) (base : Addr) :
    Twins (m.bond base) (({} : Segment).initialised pid) (m.vacant.initialised pid) := by
  have hroots : ∀ r, r ∈ (({} : Segment).initialised pid).arena.ringRoots ↔
      r = FUNCT_ENTRY_FREE := fun r => List.mem_singleton
  have harena : (({} : Segment).initialised pid).arena.Twin (fun _ => []) []
      (m.vacant.initialised pid).arena :=
    { mem := Shape.zero.mem
      brk := by simp [Segment.vacant, Segment.initialised, Arena.list_init_entry, Brk.init, h.avail]
      carved := rfl
      pool := fun k hk => by
        have hz := Segment.reset_zero.lists pid hk.1
        have hm : ((m.vacant.initialised pid).arena.pool k).list_ptr = 0 ∧
            ((m.vacant.initialised pid).arena.pool k).free_ptr = 0 := h.lists pid hk.1
        exact
          { list := hm.1.trans hz.1.symm
            free := hm.2.trans hz.2.symm
            next := fun x hx => absurd hx List.not_mem_nil
            list_mem := fun h₀ => absurd hz.1 h₀
            free_mem := fun h₀ => absurd hz.2 h₀
            next_mem := fun x hx => absurd hx List.not_mem_nil }
      links := fun x hx => by
        rcases hx with hx | hx
        · obtain rfl := (hroots x).mp hx
          exact ⟨rfl, rfl⟩
        · exact absurd hx List.not_mem_nil
      rings := Shape.zero.rings.roots_congr fun r hr =>
        Lists.mem_roots_empty.mpr ((hroots r).mp hr)
      wheel := fun r _ e he => absurd he List.not_mem_nil
      loose_mem := fun e he => absurd he List.not_mem_nil }
  exact ⟨_,
    { arena := harena
      mutex := rfl
      lock := rfl
      state := rfl
      threads_running := rfl
      init_pid := rfl
      error_code := rfl
      same := fun k x hx => absurd hx List.not_mem_nil
      cid := fun _ => ⟨rfl, rfl⟩
      old := fun _ => ⟨rfl, rfl⟩
      wild := fun h₀ => absurd rfl h₀ }⟩

/-! ### Two starts -/

/-- The two processes have the same static data and RTAPI. -/
structure Level (s s' : State σ) : Prop where
  base : s'.hal_shmem_base = s.hal_shmem_base
  data : s'.hal_data = s.hal_data
  module : s'.lib_module_id = s.lib_module_id
  mem_id : s'.lib_mem_id = s.lib_mem_id
  rt : s'.rt = s.rt
  readable : s'.readable = s.readable

/-- Both attached, and initialised their segments. -/
def Initialised (m m' : Segment) (t t' : State σ) : Prop :=
  Level t t' ∧ t.hal_data ≠ 0 ∧
    ∃ pid, t.shm = m.initialised pid ∧ t'.shm = m'.initialised pid

theorem Level.init_hal_data (h : Level s s') (hm : s'.shm.mutex = s.shm.mutex) :
    Both (init_hal_data R) (init_hal_data R) s s' fun r t t' =>
      r = 0 ∧ Initialised s.shm s'.shm t t' := by
  unfold Hal.init_hal_data rtapi_mutex_get
  refine .bind (.get (.ite (by rw [h.data]) (fun _ => .bind .throw) fun h₀ => .bind (.modify ?_)))
  refine .ite (by rw [hm]) (fun _ => .bind .throw) fun _ => both_change ?_
  refine .bind (both_change (.bind (both_call (by rw [h.rt]) (.bind (both_change ?_)))))
  refine .bind (.modify (.pure ⟨rfl, ?_, h₀, _, rfl, rfl⟩))
  exact ⟨h.base, h.data, h.module, h.mem_id, rfl, h.readable⟩

/-- Two new processes start alike. -/
theorem Level.hal_app_main (h : Level s s') (hm : s'.shm.mutex = s.shm.mutex) :
    Both (hal_app_main R) (hal_app_main R) s s' fun r t t' =>
      r = 0 → Initialised s.shm s'.shm t t' := by
  have hneg : -EINVAL ≠ 0 := by decide
  unfold Hal.hal_app_main
  refine .bind (both_call (by rw [h.rt]) (.bind (.modify ?_)))
  refine .ite .rfl (fun _ => .pure fun e => absurd e hneg) fun _ => ?_
  refine .bind (both_call rfl (.bind (.modify ?_)))
  refine .ite .rfl (fun _ => .bind (both_call rfl (.pure fun e => absurd e hneg))) fun _ => ?_
  refine .bind (both_call rfl ?_)
  refine .ite .rfl (fun _ => ?_) fun _ => ?_
  · exact .bind (both_call rfl (.bind (both_call rfl (.pure fun e => absurd e hneg))))
  refine .bind (.modify (.bind (both_change (.bind ?_))))
  refine Both.mono (Level.init_hal_data ⟨rfl, rfl, rfl, rfl, rfl, h.readable⟩ hm) fun r t t' hpost => ?_
  obtain ⟨hr, hlevel, h₀, pid, ht, ht'⟩ := hpost
  exact .ite .rfl (fun e => absurd hr e) fun _ => .pure fun _ => ⟨hlevel, h₀, pid, ht, ht'⟩

end

/-! ### The names -/

section
variable {m m' : Segment} {b : Bond} {k : Kind} {x : Nat}

theorem Twins.nameAt (h : Twins b m m') (hx : x ∈ m.arena.carved k) (hk : k ≠ .oldname) :
    m'.nameAt k x = m.nameAt k x := by
  have hs := h.same hx
  cases k with
  | comp => exact hs.comp.2.2.2.2
  | pin => exact hs.pin.2.2
  | param => exact hs.param.2
  | funct => exact congrArg Funct.name hs
  | thread => exact hs.thread.2.2
  | entry => rfl
  | oldname => exact absurd rfl hk

/-- The lists are the same, and so are the names on them. -/
theorem Twins.names (h : Twins b m m') : SameNames m m' := by
  intro k hentry hold names
  have hp := h.pool ⟨hold, hentry⟩
  have hlist : ∀ xs, Chain (m'.arena.pool k).next_ptr (m'.arena.pool k).list_ptr xs ↔
      Chain (m.arena.pool k).next_ptr (m.arena.pool k).list_ptr xs := fun xs => by
    rw [hp.list]
    exact hp.chain_iff hp.list_mem
  have hnames : ∀ xs, Chain (m.arena.pool k).next_ptr (m.arena.pool k).list_ptr xs →
      xs.map (m'.nameAt k) = xs.map (m.nameAt k) := fun xs hc =>
    List.map_congr_left fun x hx => h.nameAt (hp.chain_mem hp.list_mem hc x hx) hold
  constructor
  · rintro ⟨xs, hc, rfl⟩
    have hc := (hlist xs).mp hc
    exact ⟨xs, hc, (hnames xs hc).symm⟩
  · rintro ⟨xs, hc, rfl⟩
    exact ⟨xs, (hlist xs).mpr hc, hnames xs hc⟩

end

/-! ### Sessions -/

/-- A new process, which will attach to the segment `m`. -/
def holding (m : Segment) : State Machine := { fresh with shm := m.vacant }

/-- The process starts HAL, and goes on with the operations when that succeeds. -/
def session (K : Kernel) (ops : List Op) : Prog Machine (Int × List Reply) := do
  let r ← hal_app_main (rtapi K)
  if r = 0 then
    let rs ← replies (rtapi K) ops
    return (r, rs)
  else
    return (r, [])

/-- Nothing was given back as the old name of a parameter. -/
def Segment.Nameless (m : Segment) : Prop := (m.arena.pool .oldname).free_ptr = 0

/-- On both segments the operations return the same and register the same names, and none of them
takes what it finds in the memory of a parameter for an old name. -/
structure SameOn (K : Kernel) (ops : List Op) (m m' : Segment) : Prop where
  both : Both (session K ops) (session K ops) (holding m) (holding m') fun r t t' =>
    r.1 = 0 → SameNames t.shm t'.shm ∧ t.shm.Nameless ∧ t'.shm.Nameless

/-- The parameter structures that the operations make on a zero-filled segment. -/
def made (K : Kernel) (ops : List Op) : List Nat :=
  (after (session K ops) (holding {})).shm.arena.carved .param

/-- What nothing writes before it is read is zero: the lists of the pins and `shmem_avail`, and
`oldname` where the operations make a parameter. -/
structure Segment.Clean (K : Kernel) (ops : List Op) (m : Segment) : Prop where
  mutex : m.mutex = false
  reset : m.Reset
  oldname : ∀ x ∈ made K ops, (m.param x).oldname = 0

section
variable {K : Kernel} {ops : List Op} {m m' : Segment}

theorem Level.holding (m m' : Segment) : Level (holding m) (holding m') :=
  ⟨rfl, rfl, rfl, rfl, rfl, rfl⟩

theorem Paired.start {t t' : State Machine} (hs : Starts K t) (h : Initialised {} m.vacant t t')
    (hm : m.Reset) : Paired (m.bond t.hal_shmem_base) t t' := by
  obtain ⟨hlevel, h₀, pid, ht, ht'⟩ := h
  have hinv := hs.inv
  constructor
  case abreast =>
    exact
      { shm := by
          rw [ht, ht']
          exact hm.twins _
        base := hlevel.base
        mapped := rfl
        data := hlevel.data
        module := hlevel.module
        mem_id := hlevel.mem_id
        rt := hlevel.rt
        readable := hlevel.readable
        attached := h₀
        ready := hs.attached.mem_id }
  case inv => exact ⟨_, hinv⟩
  case comps =>
    intro x hx
    exact absurd (hinv.good.shape.listed.mp hx) List.not_mem_nil

/-- A zero-filled segment and a clean one. -/
theorem Segment.Clean.zero (h : m.Clean K ops) (hsane : ∀ op ∈ ops, op.Sane) :
    Both (session K ops) (session K ops) (Hal.holding {}) (Hal.holding m) fun r t t' =>
      r.1 = 0 → SameNames t.shm t'.shm ∧ t'.shm.Nameless := by
  have hmade : ∀ r t, session K ops (Hal.holding {}) = .ok r t →
      made K ops = t.shm.arena.carved .param := fun r t hrun => by
    unfold made after
    rw [hrun]
  suffices hrun : Both (session K ops) (session K ops) (Hal.holding {}) (Hal.holding m) fun r t t' =>
      r.1 = 0 → made K ops = t.shm.arena.carved .param →
        SameNames t.shm t'.shm ∧ t'.shm.Nameless from
    hrun.with_eq.mono fun r t t' hpost hr => hpost.2.2 hr (hmade r t hpost.1)
  unfold session
  refine .bind (((Level.holding {} m).hal_app_main h.mutex).with_eq.mono fun r t t' hpost => ?_)
  obtain ⟨hrun, -, hpost⟩ := hpost
  refine .ite .rfl (fun hr => ?_) fun hr => .pure fun h₀ => absurd h₀ hr
  subst hr
  have hpair := Paired.start hrun (hpost rfl) h.reset
  refine .bind ((hpair.replies hsane).mono fun rs u u' hu => .pure fun _ e => ?_)
  obtain ⟨b, hu, hb⟩ := hu
  obtain ⟨ring, hw⟩ := hu.abreast.shm
  -- a structure is given back as an old name only where `m` has one
  refine ⟨hu.abreast.shm.names, Classical.by_contradiction fun hne => ?_⟩
  obtain ⟨x, hx, hold⟩ := hw.wild hne
  rw [hb.old] at hold
  exact hold (h.oldname x (e ▸ hx))

/-- Both do what a zero-filled one does. -/
theorem Segment.Clean.sameOn (h : m.Clean K ops) (h' : m'.Clean K ops)
    (hsane : ∀ op ∈ ops, op.Sane) : SameOn K ops m m' := by
  refine ⟨((h.zero hsane).trans (h'.zero hsane)).mono fun r t t' hpost hr => ?_⟩
  obtain ⟨u, hu, hu'⟩ := hpost
  obtain ⟨hn, ho⟩ := hu hr
  obtain ⟨hn', ho'⟩ := hu' hr
  exact ⟨fun k hk hk' names => (hn' k hk hk' names).trans (hn k hk hk' names).symm, ho, ho'⟩

/-- **Initialising forgets a clean segment.** -/
theorem sameOn_of_clean (h : m.Clean K ops) (h' : m'.Clean K ops) (hsane : ∀ op ∈ ops, op.Sane) :
    SameOn K ops m m' := h.sameOn h' hsane

end

/-- All that is written again is scrawled over. -/
def scrawled : Segment where
  arena :=
    { pool := fun k => if k = .pin then .nil else ⟨7, 9, fun _ => 5⟩
      links := ⟨fun x => x + 1, fun _ => 3⟩ }
  lock := 15
  state := .destroyed
  threads_running := 1
  comp := fun _ => { comp_id := 77, ready := 1, name := lit ['c'] }
  pin := fun _ => { oldname := 12, name := lit ['p'] }
  param := fun _ => { owner_ptr := 12, name := lit ['p'] }
  thread := fun _ => { comp_id := 77, name := lit ['t'] }

theorem sameOn_scrawled : SameOn serving pinning scrawled {} := by
  have hsane : ∀ op ∈ pinning, op.Sane := by simp [pinning, Op.Sane]
  have h : scrawled.Clean serving pinning := ⟨rfl, ⟨rfl, rfl, rfl⟩, fun _ _ => rfl⟩
  have h₀ : Segment.Clean serving pinning {} := ⟨rfl, ⟨rfl, rfl, rfl⟩, fun _ _ => rfl⟩
  exact sameOn_of_clean h h₀ hsane

/-! ### What shows -/

section
variable {K : Kernel} {m : Segment}

/-- What `hal_get_stats` reports of the pins and of the free memory. -/
theorem hal_get_stats_reads {σ : Type} (s : State σ) :
    Wp (hal_get_stats true) s (fun r _ => ∀ stats, r.2 = some stats →
      s.shm.count_list .pin = some stats.pin_count ∧
        s.shm.arena.brk.shmem_avail = stats.shmem_avail) fun _ _ => True := by
  unfold hal_get_stats rtapi_mutex_get
  simp only [wp_bind, wp_get]
  refine .ite (fun _ _ h => by cases h) fun _ => ?_
  simp only [wp_bind, wp_get]
  refine .ite (fun _ => trivial) fun _ => ?_
  simp only [wp_bind, wp_modify]
  refine .ite (fun _ => trivial) fun _ => ?_
  rw [wp_change]
  have hcount : ({ s.shm with mutex := true } : Segment).count_list .pin = s.shm.count_list .pin :=
    count_list_arena (by rfl) .pin
  refine wp_walk_any fun comps _ => wp_walk_any fun pins hpins => ?_
  refine wp_walk_any fun params _ => wp_walk_any fun functs _ => wp_walk_any fun threads _ => ?_
  rw [wp_look]
  intro stats h
  cases h
  exact ⟨hcount.symm.trans hpins, rfl⟩

/-- A session of one operation. -/
theorem session_one {op : Op} {a : Reply} {s t u : State Machine}
    (h : hal_app_main (rtapi K) s = .ok 0 t) :
    session K [op] s = .ok (0, [a]) u ↔ op.reply (rtapi K) t = .ok a u := by
  unfold session
  rw [bind_eq_ok]
  constructor
  · rintro ⟨r, t', hr, hrun⟩
    cases h.symm.trans hr
    obtain ⟨rs, u', hrs, hend⟩ := bind_eq_ok.mp hrun
    obtain ⟨b, v, hb, hnil⟩ := bind_eq_ok.mp hrs
    cases hend
    cases hnil
    exact hb
  · intro hrun
    refine ⟨0, t, h, bind_eq_ok.mpr ⟨[a], u, ?_, rfl⟩⟩
    exact bind_eq_ok.mpr ⟨a, u, hrun, rfl⟩

/-- A process that asks for the statistics at once sees the old pins and the old `shmem_avail`. -/
theorem reset_of_sameOn {t : State Machine} (hs : Starts K t) (hm : m.mutex = false)
    (h : SameOn K [.hal_get_stats true] {} m) :
    (m.arena.pool .pin).list_ptr = 0 ∧ m.arena.brk.shmem_avail = 0 := by
  obtain ⟨t', hs', hinit⟩ := ((Level.holding {} m).hal_app_main (R := rtapi K) hm).of_ok hs
  obtain ⟨-, -, pid, ht, ht'⟩ := hinit rfl
  -- the zero-filled segment has no pins, and nothing was computed there
  obtain ⟨r, u, hr, hspec⟩ := (hal_get_stats_spec hs.inv true).exists_ok
  obtain ⟨u', hrun, -⟩ := h.both.of_ok ((session_one hs).mpr (map_eq_ok.mpr ⟨r, hr, rfl⟩))
  obtain ⟨r', hr', e⟩ := map_eq_ok.mp ((session_one hs').mp hrun)
  cases e
  obtain ⟨-, -, rfl⟩ := hspec.resolve_left fun e => absurd e.1 (by decide)
  obtain ⟨hpins, havail⟩ := (hal_get_stats_reads t').of_ok hr' _ rfl
  rw [ht'] at hpins havail
  rw [ht] at havail
  refine ⟨?_, havail⟩
  have hnone : (view t.shm .empty).pins.length = 0 := by simp [view, tab, Lists.empty]
  simp only [hnone] at hpins
  have hzero := count_list_zero hpins
  exact hzero

end

/-- What initialising leaves unwritten is zero, whatever is done afterwards: the lists of the pins,
`shmem_avail`, and `oldname` where a parameter may come to lie. -/
structure Segment.Blank (m : Segment) : Prop where
  mutex : m.mutex = false
  reset : m.Reset
  oldname : ∀ (K : Kernel) (ops : List Op), (∀ op ∈ ops, op.Sane) → ∀ x ∈ made K ops,
    (m.param x).oldname = 0

/-- **Initialising forgets what a blank segment contains**, under every kernel and every sequence of
operations; and a segment on which every sequence does what it does on a zero-filled one has an empty
list of pins and 0 for `shmem_avail`. -/
theorem initialising_forgets (m : Segment) (hm : m.mutex = false) :
    (m.Blank → ∀ m' : Segment, m'.Blank → ∀ (K : Kernel) (ops : List Op),
      (∀ op ∈ ops, op.Sane) → SameOn K ops m m') ∧
    ((∀ (K : Kernel) (ops : List Op), (∀ op ∈ ops, op.Sane) → SameOn K ops {} m) →
      (m.arena.pool .pin).list_ptr = 0 ∧ m.arena.brk.shmem_avail = 0) := by
  refine ⟨fun h m' h' K ops hsane => ?_, fun hsame => ?_⟩
  · have hclean : m.Clean K ops := ⟨h.mutex, h.reset, h.oldname K ops hsane⟩
    have hclean' : m'.Clean K ops := ⟨h'.mutex, h'.reset, h'.oldname K ops hsane⟩
    exact hclean.sameOn hclean' hsane
  · exact reset_of_sameOn started_starts hm (hsame serving _ (by simp [Op.Sane]))

theorem initialising_forgets_scrawled :
    SameOn serving (pinning ++ [.hal_param_new (lit ['q']) .s32 .rw 69640 2, .hal_exit 2,
      .hal_get_stats true]) scrawled {} ∧
    (scrawled.arena.pool .pin).list_ptr = 0 ∧ scrawled.arena.brk.shmem_avail = 0 := by
  have h : scrawled.Blank := ⟨rfl, ⟨rfl, rfl, rfl⟩, fun _ _ _ _ _ => rfl⟩
  have h₀ : Segment.Blank {} := ⟨rfl, ⟨rfl, rfl, rfl⟩, fun _ _ _ _ _ => rfl⟩
  exact ⟨(initialising_forgets scrawled rfl).1 h {} h₀ _ _ (by simp [pinning, Op.Sane]),
    (initialising_forgets scrawled rfl).2 ((initialising_forgets {} rfl).1 h₀ scrawled h)⟩

/-- The results are the same then. -/
theorem SameOn.result_eq {K : Kernel} {ops : List Op} {m m' : Segment} (h : SameOn K ops m m') :
    result (session K ops) (holding m') = result (session K ops) (holding m) := by
  have hboth := h.both
  unfold Both at hboth
  unfold result
  cases hx : session K ops (holding m) <;> cases hx' : session K ops (holding m') <;>
    rw [hx, hx'] at hboth
  · exact congrArg some hboth.1
  · exact hboth.elim
  · exact hboth.elim

/-- The segment of a process that crashed after `pinning`. -/
def leftover : Segment := (played (rtapi serving) pinning started).shm

theorem sameOn_fails :
    ¬ ∀ (K : Kernel) (ops : List Op) (m m' : Segment), (∀ op ∈ ops, op.Sane) → m.mutex = false →
      m'.mutex = false → SameOn K ops m m' := by
  intro h
  have hsane : ∀ op ∈ ([.hal_get_stats true] : List Op), op.Sane := by simp [Op.Sane]
  have hmutex : leftover.mutex = false := by decide +kernel
  have hne : result (session serving [.hal_get_stats true]) (holding leftover) ≠
      result (session serving [.hal_get_stats true]) (holding {}) := by decide +kernel
  exact hne (h serving [.hal_get_stats true] {} leftover hsane rfl hmutex).result_eq

end RTS.Hal

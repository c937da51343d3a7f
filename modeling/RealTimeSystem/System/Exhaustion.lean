import RealTimeSystem.System.Boot

/-!
# System — out of memory

The six operations that need a structure of their own, called when there is none: its free list is
empty, and the allocator has no memory for a new one.

**Who reports it** (`reported_iff`).  All of them but `hal_add_funct_to_thread`, which hands the null
pointer that `shmalloc_dn` returned to `list_init_entry`.
-/

namespace RTS.Hal

open RTS.Support RTS.Uspace

variable {σ : Type}

/-- The operations that need a structure of their own. -/
inductive Maker where
  | hal_init (name : CStr)
  | hal_export_funct (name : CStr) (funct arg : Addr) (uses_fp reentrant comp_id : Int)
  | hal_create_thread (name : CStr) (period_nsec : Nat) (uses_fp priority : Int)
  | hal_add_funct_to_thread (funct_name thread_name : CStr) (position : Int)
  | hal_pin_new (name : CStr) (type : HalType) (data_ptr_addr : Addr) (comp_id : Int)
  | hal_param_new (name : CStr) (type : HalType) (dir : ParamDir) (data_addr : Addr) (comp_id : Int)

namespace Maker

/-- The structure it needs. -/
def kind : Maker → Kind
  | hal_init _ => .comp
  | hal_export_funct _ _ _ _ _ _ => .funct
  | hal_create_thread _ _ _ _ => .thread
  | hal_add_funct_to_thread _ _ _ => .entry
  | hal_pin_new _ _ _ _ => .pin
  | hal_param_new _ _ _ _ _ => .param

variable (R : Rtapi σ) (s : State σ)

def exec : Maker → Prog σ Int
  | hal_init name => Hal.hal_init R (some name)
  | hal_export_funct name funct arg uses_fp reentrant comp_id =>
      Hal.hal_export_funct name funct arg uses_fp reentrant comp_id
  | hal_create_thread name period_nsec uses_fp priority =>
      Hal.hal_create_thread R name period_nsec uses_fp priority
  | hal_add_funct_to_thread funct_name thread_name position =>
      Hal.hal_add_funct_to_thread (some funct_name) (some thread_name) position
  | hal_pin_new name type data_ptr_addr comp_id => Hal.hal_pin_new name type data_ptr_addr comp_id
  | hal_param_new name type dir data_addr comp_id =>
      Hal.hal_param_new name type dir data_addr comp_id

/-- A component that may register, and an address in the segment. -/
structure Registers (comp_id : Int) (addr : Addr) (comp : Nat) : Prop where
  found : s.shm.halpr_find_comp_by_id comp_id = some comp
  ne : comp ≠ 0
  inShm : SHMCHK s.hal_shmem_base addr = true
  unready : (s.shm.comp comp).ready = 0

/-- Nothing but the structure stands against the operation. -/
def Acceptable : Maker → Prop
  | hal_init name =>
      ¬ name.length > HAL_NAME_LEN ∧ ¬ (R.init (rtapi_name name) s.rt).1 < 0 ∧
        s.shm.halpr_find_comp_by_name (rt_snprintf (HAL_NAME_LEN + 1) name) = some 0
  | hal_export_funct name _ _ _ _ comp_id =>
      ¬ name.length > HAL_NAME_LEN ∧ s.shm.lock &&& HAL_LOCK_LOAD = 0 ∧
        ∃ c, c ≠ 0 ∧ s.shm.halpr_find_comp_by_id comp_id = some c ∧
          (s.shm.comp c).type ≠ .user ∧ (s.shm.comp c).ready = 0
  | hal_create_thread name period_nsec _ _ =>
      Admits s name period_nsec ∧ s.shm.halpr_find_thread_by_name name = some 0
  | hal_add_funct_to_thread funct_name thread_name position =>
      s.shm.lock &&& HAL_LOCK_CONFIG = 0 ∧
        ∃ f t es, f ≠ 0 ∧ t ≠ 0 ∧ s.shm.halpr_find_funct_by_name funct_name = some f ∧
          s.shm.halpr_find_thread_by_name thread_name = some t ∧
          ¬ ((s.shm.funct f).users > 0 ∧ (s.shm.funct f).reentrant = 0) ∧
          ¬ ((s.shm.funct f).uses_fp ≠ 0 ∧ (s.shm.thread t).uses_fp = 0) ∧
          Ring s.shm.arena.links (t + THREAD_FUNCT_LIST) es ∧ t + THREAD_FUNCT_LIST ∉ es ∧
          position ≠ 0 ∧ position.natAbs ≤ es.length + 1
  | hal_pin_new name type data_ptr_addr comp_id =>
      (Registry.paramType type ∨ type = .port) ∧ ¬ name.length > HAL_NAME_LEN ∧
        s.shm.lock &&& HAL_LOCK_LOAD = 0 ∧ ∃ c, Registers s comp_id data_ptr_addr c
  | hal_param_new name type dir data_addr comp_id =>
      Registry.paramType type ∧ (dir = .ro ∨ dir = .rw) ∧ ¬ name.length > HAL_NAME_LEN ∧
        s.shm.lock &&& HAL_LOCK_LOAD = 0 ∧ ∃ c, Registers s comp_id data_addr c

/-- Its free list is empty, and `shmalloc_dn` has no memory for the structure. -/
def Exhausted (a : Arena) : Kind → Prop
  | .entry =>
      a.links.next FUNCT_ENTRY_FREE = FUNCT_ENTRY_FREE ∧ (shmalloc_dn a.brk Kind.entry.size).1 = none
  | k => a.Full k

/-- It returns `-ENOMEM`, and the segment is what it was: its lists, rings and counts. -/
def Reported (op : Maker) : Prop := ∃ s', op.exec R s = .ok (-ENOMEM) s' ∧ s'.shm = s.shm

end Maker

/-! ### The operations that report it -/

section
variable {R : Rtapi σ} {s : State σ} {L : Lists}

/-- An operation that took the mutex and gave it leaves the segment. -/
theorem closed_shm (h : Inv s L) : (closed s { s.shm with mutex := true }).shm = s.shm := by
  have hm := h.unlocked
  show ({ s.shm with mutex := false } : Segment) = s.shm
  rw [← hm]

theorem register_new_exhausted (h : Inv s L) {k : Kind} {names : Segment → Nat → CStr}
    {alloc : Segment → Nat × Segment} {fill : Nat → Nat → Segment → Segment}
    {free : Segment → Nat → Option Segment} {addr : Addr} {comp_id : Int} {c : Nat}
    (hc : Maker.Registers s comp_id addr c)
    (ha : alloc { s.shm with mutex := true } = (0, { s.shm with mutex := true })) :
    Returns (register_new k names alloc fill free addr comp_id) s fun r s' =>
      r = -ENOMEM ∧ s'.shm = s.shm := by
  have hf : ({ s.shm with mutex := true } : Segment).halpr_find_comp_by_id comp_id = some c := hc.found
  unfold register_new
  simp only [returns_bind, returns_get]
  unfold Returns
  rw [wp_open h.attached h.unlocked, wp_walk_opened hf, if_neg hc.ne]
  refine .ite (fun hb => absurd hc.inShm (by simpa using hb)) fun _ => ?_
  rw [wp_bind, wp_look_opened]
  refine .ite (fun hr => absurd hc.unready hr) fun _ => ?_
  rw [wp_bind, wp_take_opened, ha, if_pos rfl, wp_bind, wp_close rfl]
  exact ⟨rfl, closed_shm h⟩

theorem hal_param_new_exhausted (h : Inv s L) {name : CStr} {type : HalType} {dir : ParamDir}
    {data_addr : Addr} {comp_id : Int}
    (ha : (Maker.hal_param_new name type dir data_addr comp_id).Acceptable R s)
    (hf : s.shm.arena.Full .param) :
    Returns (hal_param_new name type dir data_addr comp_id) s fun r s' =>
      r = -ENOMEM ∧ s'.shm = s.shm := by
  obtain ⟨htype, hdir, hn, hl, c, hc⟩ := ha
  unfold hal_param_new
  simp only [returns_bind, returns_get]
  refine .ite (fun h₀ => absurd h₀ h.attached) fun _ => ?_
  refine .ite (fun ht => absurd htype (by simpa [Registry.paramType] using ht)) fun _ => ?_
  refine .ite (fun hd => absurd hdir (not_or.mpr hd)) fun _ => ?_
  refine .ite (fun hn' => absurd hn' hn) fun _ => ?_
  refine .ite (fun hl' => absurd hl hl') fun _ => ?_
  have hfull : ({ s.shm with mutex := true } : Segment).arena.Full .param := hf
  exact register_new_exhausted h hc (by simp [Segment.alloc_param_struct, Shape.alloc_full hfull])

theorem hal_pin_new_exhausted (h : Inv s L) {name : CStr} {type : HalType} {data_ptr_addr : Addr}
    {comp_id : Int} (ha : (Maker.hal_pin_new name type data_ptr_addr comp_id).Acceptable R s)
    (hf : s.shm.arena.Full .pin) :
    Returns (hal_pin_new name type data_ptr_addr comp_id) s fun r s' =>
      r = -ENOMEM ∧ s'.shm = s.shm := by
  obtain ⟨htype, hn, hl, c, hc⟩ := ha
  unfold hal_pin_new
  simp only [returns_bind, returns_get]
  refine .ite (fun h₀ => absurd h₀ h.attached) fun _ => ?_
  refine wp_bind.mpr ((wp_load (.inl hc.inShm)).mpr ?_)
  refine .ite (fun ht => absurd htype (by simpa [Registry.paramType, or_assoc, and_assoc] using ht))
    fun _ => ?_
  refine .ite (fun hn' => absurd hn' hn) fun _ => ?_
  refine .ite (fun hl' => absurd hl hl') fun _ => ?_
  have hfull : ({ s.shm with mutex := true } : Segment).arena.Full .pin := hf
  exact register_new_exhausted h hc (by simp [Segment.alloc_pin_struct, Shape.alloc_full hfull])

theorem hal_export_funct_exhausted (h : Inv s L) {name : CStr} {funct arg : Addr}
    {uses_fp reentrant comp_id : Int}
    (ha : (Maker.hal_export_funct name funct arg uses_fp reentrant comp_id).Acceptable R s)
    (hf : s.shm.arena.Full .funct) :
    Returns (hal_export_funct name funct arg uses_fp reentrant comp_id) s fun r s' =>
      r = -ENOMEM ∧ s'.shm = s.shm := by
  obtain ⟨hn, hl, c, hc0, hfind, htype, hready⟩ := ha
  have hfind' : ({ s.shm with mutex := true } : Segment).halpr_find_comp_by_id comp_id = some c :=
    hfind
  have hnew : ({ s.shm with mutex := true } : Segment).alloc_funct_struct =
      (0, { s.shm with mutex := true }) := by
    have hfull : ({ s.shm with mutex := true } : Segment).arena.Full .funct := hf
    simp [Segment.alloc_funct_struct, Shape.alloc_full hfull]
  have hmade : Returns (export_funct_new name funct arg uses_fp reentrant comp_id) s fun made s' =>
      made = .error (-ENOMEM) ∧ s'.shm = s.shm := by
    unfold export_funct_new Returns
    rw [wp_bind, wp_open h.attached h.unlocked, wp_bind, wp_walk_opened hfind', if_neg hc0, wp_bind,
      wp_look_opened]
    refine .ite (fun ht => absurd ht htype) fun _ => ?_
    rw [wp_bind, wp_look_opened]
    refine .ite (fun hr => absurd hready hr) fun _ => ?_
    rw [wp_bind, wp_take_opened, hnew, if_pos rfl, wp_bind, wp_close rfl]
    exact ⟨rfl, closed_shm h⟩
  unfold hal_export_funct
  simp only [returns_bind, returns_get]
  refine .ite (fun h₀ => absurd h₀ h.attached) fun _ => ?_
  refine .ite (fun hn' => absurd hn' hn) fun _ => ?_
  refine .ite (fun hl' => absurd hl hl') fun _ => ?_
  rw [returns_bind]
  refine hmade.mono fun made s' hpost => ?_
  obtain ⟨hm, hs⟩ := hpost
  rw [hm]
  exact ⟨rfl, hs⟩

theorem hal_create_thread_exhausted (h : Inv s L) {name : CStr} {period_nsec : Nat}
    {uses_fp priority : Int}
    (ha : (Maker.hal_create_thread name period_nsec uses_fp priority).Acceptable R s)
    (hf : s.shm.arena.Full .thread) :
    Returns (hal_create_thread R name period_nsec uses_fp priority) s fun r s' =>
      r = -ENOMEM ∧ s'.shm = s.shm := by
  obtain ⟨⟨hp, hn, hl⟩, hfind⟩ := ha
  have hfind' : ({ s.shm with mutex := true } : Segment).halpr_find_thread_by_name name = some 0 :=
    hfind
  have hnew : ({ s.shm with mutex := true } : Segment).alloc_thread_struct =
      (0, { s.shm with mutex := true }) := by
    have hfull : ({ s.shm with mutex := true } : Segment).arena.Full .thread := hf
    simp [Segment.alloc_thread_struct, Shape.alloc_full hfull]
  have hmade : Returns (create_thread_task R name period_nsec uses_fp priority) s fun made s' =>
      made = .error (-ENOMEM) ∧ s'.shm = s.shm := by
    unfold create_thread_task Returns
    rw [wp_bind, wp_open h.attached h.unlocked, wp_bind, wp_walk_opened hfind', if_neg (by decide),
      wp_bind, wp_take_opened, hnew, if_pos rfl, wp_bind, wp_close rfl]
    exact ⟨rfl, closed_shm h⟩
  unfold hal_create_thread
  simp only [returns_bind, returns_get]
  refine .ite (fun h₀ => absurd h₀ h.attached) fun _ => ?_
  refine .ite (fun hp' => absurd hp' hp) fun _ => ?_
  refine .ite (fun hn' => absurd hn' hn) fun _ => ?_
  refine .ite (fun hl' => absurd hl' hl) fun _ => ?_
  rw [returns_bind]
  refine hmade.mono fun made s' hpost => ?_
  obtain ⟨hm, hs⟩ := hpost
  rw [hm]
  exact ⟨rfl, hs⟩

theorem hal_init_exhausted (h : Inv s L) {name : CStr}
    (ha : (Maker.hal_init name).Acceptable R s) (hf : s.shm.arena.Full .comp) :
    Returns (hal_init R (some name)) s fun r s' => r = -ENOMEM ∧ s'.shm = s.shm := by
  obtain ⟨hn, hid, hfind⟩ := ha
  have hfind' : ({ s.shm with mutex := true } : Segment).halpr_find_comp_by_name
      (rt_snprintf (HAL_NAME_LEN + 1) name) = some 0 := hfind
  have hnew : ({ s.shm with mutex := true } : Segment).halpr_alloc_comp_struct =
      (0, { s.shm with mutex := true }) := by
    have hfull : ({ s.shm with mutex := true } : Segment).arena.Full .comp := hf
    simp [Segment.halpr_alloc_comp_struct, Shape.alloc_full hfull]
  unfold hal_init
  refine .ite (fun hn' => absurd hn' hn) fun _ => ?_
  simp only [returns_bind, returns_get]
  rw [if_neg h.mem_id, hal_init_comp_eq, returns_bind]
  unfold Returns
  rw [wp_call]
  refine .ite (fun hid' => absurd hid' hid) fun _ => ?_
  have h₁ : Inv { s with rt := (R.init (rtapi_name name) s.rt).2 } L :=
    ((Moved.refl h).outside _ s.ref_cnt s.strikes).inv
  rw [wp_bind]
  unfold init_insert
  rw [wp_bind, wp_open h₁.attached h₁.unlocked, wp_bind, wp_walk_opened hfind', if_neg (by decide),
    wp_bind, wp_take_opened, hnew, if_pos rfl, wp_bind, wp_close rfl]
  exact ⟨rfl, closed_shm h⟩

/-! ### The one that does not -/

theorem add_funct_exhausted (h : Inv s L) {funct_name thread_name : CStr} {p : Int}
    (ha : (Maker.hal_add_funct_to_thread funct_name thread_name p).Acceptable R s)
    (he : Maker.Exhausted s.shm.arena .entry) :
    ∃ s', hal_add_funct_to_thread (some funct_name) (some thread_name) p s = .error .segv s' := by
  obtain ⟨hl, f, t, es, hf0, ht0, hf, ht, hu, hfp, hring, hes, hp0, hp⟩ := ha
  have hb : Op.Blocked s (.hal_add_funct_to_thread (some funct_name) (some thread_name) p) :=
    ⟨hl, f, t, es, hf0, ht0, hf, ht, hu, hfp, hring, hes, hp0, hp, he.1, he.2⟩
  obtain ⟨h₀, hnone⟩ := (add_funct_blocked h _ _ p).mpr hb
  have hspec := hal_add_funct_spec h (some funct_name) (some thread_name) p rfl
  unfold Wp at hspec
  cases hrun : hal_add_funct_to_thread (some funct_name) (some thread_name) p s with
  | ok r s' =>
      rw [hrun] at hspec
      exact absurd hnone (hspec.1 h₀)
  | error e s' =>
      rw [hrun] at hspec
      exact ⟨s', by rw [hspec.1]⟩

theorem Maker.reported_of {op : Maker}
    (h : Returns (op.exec R) s fun r s' => r = -ENOMEM ∧ s'.shm = s.shm) : op.Reported R s := by
  obtain ⟨r, s', hrun, rfl, hs⟩ := h.exists_ok
  exact ⟨s', hrun, hs⟩

/-- **Out of memory is reported** by every operation but `hal_add_funct_to_thread`: it returns
`-ENOMEM` and leaves the segment as it was. -/
theorem reported_iff (h : Reachable R s) {op : Maker} (ha : op.Acceptable R s)
    (he : Maker.Exhausted s.shm.arena op.kind) : op.Reported R s ↔ op.kind ≠ .entry := by
  obtain ⟨L, hinv⟩ := h.inv
  cases op with
  | hal_init name =>
      exact iff_of_true (Maker.reported_of (hal_init_exhausted hinv ha he)) (fun e => nomatch e)
  | hal_export_funct name funct arg uses_fp reentrant comp_id =>
      exact iff_of_true (Maker.reported_of (hal_export_funct_exhausted hinv ha he)) (fun e => nomatch e)
  | hal_create_thread name period_nsec uses_fp priority =>
      exact iff_of_true (Maker.reported_of (hal_create_thread_exhausted hinv ha he)) (fun e => nomatch e)
  | hal_add_funct_to_thread funct_name thread_name position =>
      refine iff_of_false ?_ (not_not_intro rfl)
      rintro ⟨s', hrun, -⟩
      obtain ⟨s'', hstop⟩ := add_funct_exhausted hinv ha he
      rw [Maker.exec, hstop] at hrun
      cases hrun
  | hal_pin_new name type data_ptr_addr comp_id =>
      exact iff_of_true (Maker.reported_of (hal_pin_new_exhausted hinv ha he)) (fun e => nomatch e)
  | hal_param_new name type dir data_addr comp_id =>
      exact iff_of_true (Maker.reported_of (hal_param_new_exhausted hinv ha he)) (fun e => nomatch e)

end

/-- A function and a thread, and then all of the memory but 24 bytes. -/
def exhaustingOps : List Op :=
  [.hal_init (some (lit ['c'])), .hal_export_funct (lit ['f']) 8 16 0 1 2,
    .hal_create_thread (lit ['t']) 1000000 0 50, .hal_malloc 1047304]

def exhausted : State Machine := played (rtapi serving) exhaustingOps started

theorem exhausted_reachable : Reachable (rtapi serving) exhausted :=
  Playable.reachable ⟨trivial, trivial, by decide +kernel, trivial, trivial, by decide +kernel,
    trivial, trivial, by decide +kernel, (by decide : (0 : Int) ≤ 1047304), trivial,
    by decide +kernel, trivial⟩

/-- There is no room for another component. -/
theorem reported_iff_sample :
    (Maker.hal_init (lit ['d'])).Reported (rtapi serving) exhausted := by
  have ha : (Maker.hal_init (lit ['d'])).Acceptable (rtapi serving) exhausted :=
    ⟨by decide, by decide +kernel, by decide +kernel⟩
  have he : Maker.Exhausted exhausted.shm.arena .comp := ⟨by decide +kernel, by decide +kernel⟩
  exact (reported_iff exhausted_reachable ha he).mpr fun e => nomatch e

/-- The thread would have called the function, but for the entry. -/
theorem exhausted_crashes : ∃ s, Reachable (rtapi serving) s ∧
    (Maker.hal_add_funct_to_thread (lit ['f']) (lit ['t']) 1).Acceptable (rtapi serving) s ∧
    Maker.Exhausted s.shm.arena .entry ∧
    ¬ (Maker.hal_add_funct_to_thread (lit ['f']) (lit ['t']) 1).Reported (rtapi serving) s ∧
    ∃ s', (Maker.hal_add_funct_to_thread (lit ['f']) (lit ['t']) 1).exec (rtapi serving) s =
      .error .segv s' := by
  have hrun := stops_eq (x := (Maker.hal_add_funct_to_thread (lit ['f']) (lit ['t']) 1).exec
    (rtapi serving)) (s := exhausted) (e := .segv) (by decide +kernel)
  refine ⟨exhausted, exhausted_reachable, ⟨by decide +kernel, ?_⟩,
    ⟨by decide +kernel, by decide +kernel⟩, ?_, _, hrun⟩
  · refine ⟨(exhausted.shm.arena.pool .funct).list_ptr, (exhausted.shm.arena.pool .thread).list_ptr,
      [], by decide +kernel, by decide +kernel, by decide +kernel, by decide +kernel,
      by decide +kernel, by decide +kernel, ⟨by decide +kernel, by decide +kernel⟩,
      List.not_mem_nil, by decide, by decide⟩
  · rintro ⟨s', h, -⟩
    rw [hrun] at h
    cases h

end RTS.Hal

import RealTimeSystem.Hal.Outside
import RealTimeSystem.System.Initialising

/-!
# System — `hal_init` after one that failed

A process that has not called `hal_app_main` initialises the library in its first `hal_init`, under
`if (!lib_mem_id)`.  The block stores the result of `rtapi_shmem_new` in `lib_mem_id` before it knows
that the segment is attached, and does not take it back.

* `hal_init_lib_outcome` — what the block leaves at each of its failures.
* `Sound` — one call: it goes on past the block with a segment that a call has attached and
  initialised, or fails in the block such that the next call runs the block again.
* **`retries_iff`** — every call of a sequence is sound if and only if none of them fails between
  `rtapi_shmem_new` and `init_hal_data`.
-/

namespace RTS.Hal

open RTS.Support RTS.Uspace

variable {σ : Type} (R : Rtapi σ)

/-! ### The block -/

/-- The library-initialisation block of `hal_init`. -/
def hal_init_block : Prog σ Int := do
  let s ← get
  if s.lib_mem_id = 0 then
    hal_init_lib R
  else
    return 0

/-- The two tests of `hal_init` before the block. -/
def Nameable : Option CStr → Prop
  | none => False
  | some name => name.length ≤ HAL_NAME_LEN

theorem hal_init_refused {name : Option CStr} (hn : ¬ Nameable name) (s : State σ) :
    hal_init R name s = .ok (-EINVAL) s := by
  rcases name with _ | name
  · rfl
  · exact congrFun (if_pos (Nat.not_le.mp hn)) s

/-- `hal_init` is the block and then the rest. -/
theorem hal_init_nameable {name : CStr} (hn : Nameable (some name)) (s : State σ) :
    hal_init R (some name) s = (do
      let retval ← hal_init_block R
      if retval ≠ 0 then
        return retval
      else
        hal_init_comp R name) s := by
  refine (congrFun (if_neg (Nat.not_lt.mpr hn)) s).trans ?_
  change (ite (s.lib_mem_id = 0) _ _ : Prog σ Int) s =
    (ite (s.lib_mem_id = 0) _ _ >>= _ : Prog σ Int) s
  by_cases hid : s.lib_mem_id = 0
  · rw [if_pos hid, if_pos hid]
  · rw [if_neg hid, if_neg hid]
    rfl

/-- The block runs, and fails with a value in `lib_mem_id` that is not 0: `rtapi_shmem_new` fails, or
`rtapi_shmem_getptr` on a handle other than 0. -/
def Strands (s : State σ) : Prop :=
  let i := R.init (lib_pid_name (R.getpid s.rt).1) (R.getpid s.rt).2
  let n := R.shmem_new HAL_KEY i.1 HAL_SIZE i.2
  s.lib_mem_id = 0 ∧ ¬ (s.hal_data ≠ 0 ∧ s.shm.state = .destroyed) ∧ ¬ i.1 < 0 ∧
    (n.1 < 0 ∨ n.1 ≠ 0 ∧ (R.shmem_getptr n.1 n.2).1.1 < 0)

theorem init_hal_data_attached (s : State σ) :
    Wp (init_hal_data R) s (fun r s' => r = 0 ∧ s'.hal_data ≠ 0) fun _ _ => True := by
  unfold init_hal_data rtapi_mutex_get
  simp only [wp_bind, wp_get]
  refine .ite (fun _ => trivial) fun h₀ => ?_
  rw [wp_bind, wp_modify]
  exact .ite (fun _ => trivial) fun _ => ⟨rfl, h₀⟩

/-- **What the block leaves.**  It succeeds with the segment attached, or it fails and has touched
`lib_mem_id` exactly if it strands it. -/
theorem hal_init_lib_outcome {s : State σ} (hid : s.lib_mem_id = 0) :
    Wp (hal_init_lib R) s (fun r s' => (r = 0 ∧ s'.hal_data ≠ 0 ∧ ¬ Strands R s) ∨
        (r ≠ 0 ∧ (s'.lib_mem_id = 0 ↔ ¬ Strands R s))) fun _ _ => ¬ Strands R s := by
  have hneg : -EINVAL ≠ 0 := by decide
  unfold hal_init_lib
  simp only [wp_bind, wp_get]
  refine .ite (fun hd => .inr ⟨hneg, ?_⟩) fun hd => ?_
  · exact ⟨fun _ h => h.2.1 hd, fun _ => hid⟩
  refine .ite (fun hi => .inr ⟨hneg, ?_⟩) fun hi => ?_
  · exact ⟨fun _ h => h.2.2.1 hi, fun _ => hid⟩
  refine .ite (fun hn => .inr ⟨hneg, ?_⟩) fun hn => ?_
  · -- the error code stays in `lib_mem_id`
    exact ⟨fun h₀ => absurd h₀ (Int.ne_of_lt hn), fun h => absurd ⟨hid, hd, hi, .inl hn⟩ h⟩
  refine .ite (fun hp => .inr ⟨hneg, ?_⟩) fun hp => ?_
  · -- the handle stays
    refine ⟨fun h₀ h => ?_, fun h => ?_⟩
    · exact h.2.2.2.elim hn fun hne => hne.1 h₀
    · exact Decidable.by_contra fun hne => h ⟨hid, hd, hi, .inr ⟨hne, hp⟩⟩
  have hcalm : ¬ Strands R s := fun h => h.2.2.2.elim hn fun hne => hp hne.2
  rw [wp_bind, wp_modify, wp_bind]
  refine (init_hal_data_attached R _).mono (fun r s' hpost => ?_) fun _ _ _ => hcalm
  obtain ⟨hr, h₀⟩ := hpost
  exact .ite (fun hne => absurd hr hne) fun _ => .inl ⟨rfl, h₀, hcalm⟩

/-! ### One call -/

/-- The segments that the calls have attached and initialised: a call adds the one of its block. -/
def initialised_by (name : Option CStr) (s : State σ) (as : List Addr) : List Addr :=
  match name, s.lib_mem_id, hal_init_lib R s with
  | some n, 0, .ok 0 s₁ => if n.length ≤ HAL_NAME_LEN then s₁.hal_data :: as else as
  | _, _, _ => as

/-- What a retry needs of a call from `s`, after calls that attached the segments `as`. -/
structure Sound (name : Option CStr) (s : State σ) (as : List Addr) : Prop where
  /-- past the block -/
  attached : Nameable name → ∀ s₁, hal_init_block R s = .ok 0 s₁ →
    s₁.hal_data ≠ 0 ∧ s₁.hal_data ∈ initialised_by R name s as
  /-- failed in the block: the next call runs it again -/
  again : Nameable name → ∀ r s₁, hal_init_block R s = .ok r s₁ → r ≠ 0 → s₁.lib_mem_id = 0

/-- When the block is skipped, a call has attached the segment. -/
def Ready (s : State σ) (as : List Addr) : Prop :=
  s.lib_mem_id ≠ 0 → s.hal_data ≠ 0 ∧ s.hal_data ∈ as

/-- The library is not touched. -/
def SameLib (s s' : State σ) : Prop := s'.lib_mem_id = s.lib_mem_id ∧ s'.hal_data = s.hal_data

instance : Std.Refl (SameLib (σ := σ)) := ⟨fun _ => ⟨rfl, rfl⟩⟩

instance : IsTrans (State σ) SameLib where
  trans _ _ _ h h' := ⟨h'.1.trans h.1, h'.2.trans h.2⟩

theorem SameLib.outer : Outer R SameLib where
  inside _ _ _ _ _ := ⟨rfl, rfl⟩
  step _ _ _ := ⟨rfl, rfl⟩

variable {R} {s s' : State σ} {as : List Addr} {name : Option CStr}

theorem block_skipped (hid : s.lib_mem_id ≠ 0) : hal_init_block R s = .ok 0 s :=
  congrFun (if_neg hid) s

theorem block_run (hid : s.lib_mem_id = 0) : hal_init_block R s = hal_init_lib R s :=
  congrFun (if_pos hid) s

theorem initialised_by_block (hn : Nameable name) (hid : s.lib_mem_id = 0) {s₁ : State σ}
    (hlib : hal_init_lib R s = .ok 0 s₁) : initialised_by R name s as = s₁.hal_data :: as := by
  rcases name with _ | n
  · exact hn.elim
  · unfold initialised_by
    rw [hid, hlib]
    exact if_pos hn

theorem initialised_by_skipped (hid : s.lib_mem_id ≠ 0) : initialised_by R name s as = as := by
  unfold initialised_by
  split
  · next h₀ _ => exact absurd h₀ hid
  · rfl

theorem initialised_by_refused (hn : ¬ Nameable name) : initialised_by R name s as = as := by
  rcases name with _ | n
  · rfl
  · unfold initialised_by
    split
    · next e _ _ =>
        cases e
        exact if_neg hn
    · rfl

/-- **One call** is sound unless it strands `lib_mem_id`. -/
theorem sound_iff (hr : Ready s as) : Sound R name s as ↔ ¬ (Nameable name ∧ Strands R s) := by
  constructor
  · rintro hs ⟨hn, hstrand⟩
    have hid := hstrand.1
    have hout := hal_init_lib_outcome R hid
    unfold Wp at hout
    cases hlib : hal_init_lib R s with
    | ok r s₁ =>
        rw [hlib] at hout
        rcases hout with ⟨-, -, hno⟩ | ⟨hr0, hmem⟩
        · exact hno hstrand
        · exact hmem.mp (hs.again hn r s₁ ((block_run hid).trans hlib) hr0) hstrand
    | error e s₁ =>
        rw [hlib] at hout
        exact hout hstrand
  · intro hc
    constructor
    · intro hn s₁ hblock
      by_cases hid : s.lib_mem_id = 0
      · have hlib := (block_run hid).symm.trans hblock
        have hout := (hal_init_lib_outcome R hid).of_ok hlib
        rw [initialised_by_block hn hid hlib]
        exact ⟨(hout.resolve_right fun h => h.1 rfl).2.1, List.mem_cons_self⟩
      · obtain ⟨-, rfl⟩ : (0 : Int) = 0 ∧ s = s₁ := by
          simpa using (block_skipped hid).symm.trans hblock
        rw [initialised_by_skipped hid]
        exact hr hid
    · intro hn r s₁ hblock hr0
      by_cases hid : s.lib_mem_id = 0
      · have hlib := (block_run hid).symm.trans hblock
        have hout := (hal_init_lib_outcome R hid).of_ok hlib
        exact (hout.resolve_left fun h => hr0 h.1).2.mpr fun hstrand => hc ⟨hn, hstrand⟩
      · have hend := (block_skipped hid).symm.trans hblock
        cases hend
        exact absurd rfl hr0

/-- A call that skips the block with a null `hal_data` stops at the mutex, once `rtapi_init` has taken
the component in. -/
theorem hal_init_null {n : CStr} (hn : Nameable (some n)) (hid : s.lib_mem_id ≠ 0)
    (h₀ : s.hal_data = 0) (hinit : ¬ (R.init (rtapi_name n) s.rt).1 < 0) :
    Wp (hal_init R (some n)) s (fun _ _ => False) fun e _ => e = .segv := by
  unfold Wp
  rw [hal_init_nameable R hn]
  show Wp (hal_init_block R >>= fun retval => _) s (fun _ _ => False) fun e _ => e = .segv
  rw [wp_bind]
  unfold Wp
  rw [block_skipped hid]
  show Wp (hal_init_comp R n) s (fun _ _ => False) fun e _ => e = .segv
  unfold hal_init_comp rtapi_mutex_get
  simp only [wp_bind, wp_call]
  refine .ite (fun hneg => absurd hneg hinit) fun _ => ?_
  rw [wp_bind, wp_bind, wp_get]
  exact .ite (fun _ => rfl) fun hne => absurd h₀ hne

/-- What a sound call leaves to the next. -/
theorem Ready.call (hr : Ready s as) (hs : Sound R name s as) {r : Int}
    (h : hal_init R name s = .ok r s') : Ready s' (initialised_by R name s as) := by
  by_cases hn : Nameable name
  swap
  · rw [hal_init_refused R hn] at h
    cases h
    rwa [initialised_by_refused hn]
  rcases name with _ | n
  · exact hn.elim
  rw [hal_init_nameable R hn] at h
  obtain ⟨a, s₁, hblock, hrest⟩ := bind_eq_ok.mp h
  by_cases ha : a = 0
  · subst ha
    obtain ⟨hid, hdata⟩ := ((SameLib.outer R).keeps.hal_init_comp n).of_ok hrest
    obtain ⟨h₀, hmem⟩ := hs.attached hn s₁ hblock
    exact fun _ => by rw [hdata]; exact ⟨h₀, hmem⟩
  · have hend := (congrFun (if_pos ha) s₁).symm.trans hrest
    cases hend
    exact fun hne => absurd (hs.again hn _ _ hblock ha) hne

/-! ### Sequences of calls -/

variable (R)

/-- Every call of the sequence is sound; a call that stops the process ends it. -/
def Retries : List (Option CStr) → State σ → List Addr → Prop
  | [], _, _ => True
  | name :: names, s, as => Sound R name s as ∧
      ∀ r s', hal_init R name s = .ok r s' → Retries names s' (initialised_by R name s as)

/-- No call of the sequence strands `lib_mem_id`. -/
def Unstranded : List (Option CStr) → State σ → Prop
  | [], _ => True
  | name :: names, s => ¬ (Nameable name ∧ Strands R s) ∧
      ∀ r s', hal_init R name s = .ok r s' → Unstranded names s'

variable {R}

theorem Ready.sound_iff {names : List (Option CStr)} (hr : Ready s as) :
    Retries R names s as ↔ Unstranded R names s := by
  induction names generalizing s as with
  | nil => exact Iff.rfl
  | cons name names ih =>
      constructor
      · rintro ⟨hs, hrest⟩
        refine ⟨(sound_iff hr).mp hs, fun r s' h => ?_⟩
        exact (ih (hr.call hs h)).mp (hrest r s' h)
      · rintro ⟨hc, hrest⟩
        have hs := (sound_iff hr).mpr hc
        exact ⟨hs, fun r s' h => (ih (hr.call hs h)).mpr (hrest r s' h)⟩

/-- **A failed `hal_init` can be retried** if and only if no call fails between `rtapi_shmem_new` and
`init_hal_data` with something in `lib_mem_id`. -/
theorem retries_iff {names : List (Option CStr)} (h : s.lib_mem_id = 0) :
    Retries R names s [] ↔ Unstranded R names s :=
  Ready.sound_iff fun hne => absurd h hne

theorem retries_iff_sample : fresh.lib_mem_id = 0 ∧
    Retries (rtapi serving) [none, some (lit ['c'])] fresh [] := by
  have hfresh : fresh.lib_mem_id = 0 := rfl
  refine ⟨hfresh, (retries_iff hfresh).mpr ⟨fun h => h.1, fun r s' h => ?_⟩⟩
  cases h
  -- the handle of the segment is 1, and it is mapped
  refine ⟨fun h => absurd h.2.2.2.2 ?_, fun _ _ _ => trivial⟩
  decide +kernel

/-- A system without room for the HAL segment. -/
def refusing_answers (n : Nat) : (c : Call) → c.Answer
  | .shmget key size => if key = HAL_KEY then .error ⟨12, enomem_pos⟩ else serving n (.shmget key size)
  | c => serving n c

/-- The first call is refused the segment; the second goes on with a null `hal_data`. -/
theorem retry_crashes :
    result (hal_init (rtapi refusing_answers) (some (lit ['a']))) fresh = some (-EINVAL) ∧
    stops (hal_init (rtapi refusing_answers) (some (lit ['b'])))
      (after (hal_init (rtapi refusing_answers) (some (lit ['a']))) fresh) = some .segv ∧
    ¬ Retries (rtapi refusing_answers) [some (lit ['a']), some (lit ['b'])] fresh [] := by
  refine ⟨by decide +kernel, by decide +kernel, fun h => ?_⟩
  have hblock : result (hal_init_block (rtapi refusing_answers)) fresh = some (-EINVAL) := by
    decide +kernel
  have hname : Nameable (some (lit ['a'])) := show _ ≤ _ by decide
  exact absurd (h.1.again hname _ _ (result_eq hblock) (by decide)) (by decide +kernel)

end RTS.Hal

import Mathlib.Algebra.Order.BigOperators.Group.List
import RealTimeSystem.System.Boot
import RealTimeSystem.System.Exporting

/-!
# System — the execution times of functions and threads

`thread_task` reads the clock before the first function of the schedule and after each of them.  Of
the time a function took it keeps nothing: it raises `maxtime` to `*(funct->runtime)`, and that pin
is never stored to.  The time of the whole cycle goes to `*(thread->runtime)`.

A word is the address of a statistic.  The words of different functions and threads lie apart
(`word_apart`), so a cycle leaves the words of a function at 0.

* `hal_export_funct_words` — the words of a function that is exported are 0.
* `thread_statistics` — the words of a thread are the last and the longest of its cycles.
* **`statistics_iff`** — the statistics are faithful if and only if no call has taken any time.
-/

namespace RTS.Hal

open RTS.Support RTS.Uspace

variable {σ : Type} {R : Rtapi σ} {s s' s₀ : State σ} {L : Lists}

/-! ### The words lie apart -/

/-- Two places in structures that are at one address are in one structure. -/
theorem Blocks.place_inj {a : Arena} (h : Blocks a) {k k' : Kind} {x x' o o' : Nat}
    (hx : x ∈ a.carved k) (hx' : x' ∈ a.carved k') (ho : o < k.size) (ho' : o' < k'.size)
    (e : x + o = x' + o') : k = k' ∧ x = x' := by
  refine Decidable.by_contra fun hne => ?_
  have hapart := h.apart k k' x x' hx hx' (not_and_or.mp hne)
  omega

/-- The cell is the one of a pin and points to its dummy signal, or it is null. -/
def Segment.Timed (m : Segment) (base : Addr) (c : Nat) : Prop :=
  m.cell c = 0 ∨ ∃ x, m.Listed .pin x ∧ (m.pin x).data_ptr_addr = c ∧
    m.cell c = base + (x + PIN_DUMMYSIG)

/-- No function on the list was called since it was exported, and no thread has run: what
`hal_export_funct` and `hal_create_thread` leave. -/
structure Unmeasured (s : State σ) : Prop where
  funct_timed : ∀ f, s.shm.Listed .funct f →
    s.shm.Timed s.hal_shmem_base (f + FUNCT_RUNTIME)
  funct_runtime : ∀ f, s.shm.Listed .funct f → s.shm.cell (f + FUNCT_RUNTIME) ≠ 0 →
    s.shm.data (s.shm.cell (f + FUNCT_RUNTIME)) = 0
  funct_maxtime : ∀ f, s.shm.Listed .funct f →
    s.shm.data (s.hal_shmem_base + (f + FUNCT_MAXTIME)) = 0
  funct_increased : ∀ f, s.shm.Listed .funct f →
    s.shm.data (s.hal_shmem_base + (f + FUNCT_MAXTIME_INCREASED)) = 0
  thread_timed : ∀ t, s.shm.Listed .thread t →
    s.shm.Timed s.hal_shmem_base (t + THREAD_RUNTIME)
  thread_maxtime : ∀ t, s.shm.Listed .thread t →
    s.shm.data (s.hal_shmem_base + (t + THREAD_MAXTIME)) = 0

/-- `a` is a statistic of the function `f`. -/
def State.FunctWord (s : State σ) (f : Nat) (a : Addr) : Prop :=
  (a = s.shm.cell (f + FUNCT_RUNTIME) ∧ a ≠ 0) ∨ a = s.hal_shmem_base + (f + FUNCT_MAXTIME) ∨
    a = s.hal_shmem_base + (f + FUNCT_MAXTIME_INCREASED)

/-- `a` is a statistic of the thread `t`. -/
def State.ThreadWord (s : State σ) (t : Nat) (a : Addr) : Prop :=
  (a = s.shm.cell (t + THREAD_RUNTIME) ∧ a ≠ 0) ∨ a = s.hal_shmem_base + (t + THREAD_MAXTIME)

/-- `a` is inside the structure `x`. -/
def State.Inside (s : State σ) (k : Kind) (x : Nat) (a : Addr) : Prop :=
  x ∈ s.shm.arena.carved k ∧ ∃ o < k.size, a = s.hal_shmem_base + (x + o)

section
variable (h : Inv s L)
include h

theorem Inv.inside_inj {k k' : Kind} {x x' : Nat} {a : Addr} (hx : s.Inside k x a)
    (hx' : s.Inside k' x' a) : k = k' ∧ x = x' := by
  obtain ⟨hc, o, ho, rfl⟩ := hx
  obtain ⟨hc', o', ho', e⟩ := hx'
  exact h.good.shape.mem.place_inj hc hc' ho ho' (Nat.add_left_cancel e)

theorem Inv.listed_carved {k : Kind} (hk : k ≠ .entry) {x : Nat} (hx : s.shm.Listed k x) :
    x ∈ s.shm.arena.carved k :=
  h.good.shape.carved_act hk (h.good.shape.listed.mp hx)

/-- A cell that is not null points inside the pin of the cell. -/
theorem Inv.timed_inside {c : Nat} (ht : s.shm.Timed s.hal_shmem_base c) {a : Addr}
    (ha : a = s.shm.cell c ∧ a ≠ 0) :
    ∃ x, s.Inside .pin x a ∧ (s.shm.pin x).data_ptr_addr = c := by
  obtain ⟨rfl, h₀⟩ := ha
  obtain ⟨x, hx, hc, he⟩ := ht.resolve_left h₀
  exact ⟨x, ⟨h.listed_carved (by decide) hx, PIN_DUMMYSIG, by decide, he⟩, hc⟩

/-- A word of a function is inside the function or inside its pin. -/
theorem Inv.funct_word (hu : Unmeasured s) {f : Nat} (hf : s.shm.Listed .funct f) {a : Addr}
    (ha : s.FunctWord f a) : s.Inside .funct f a ∨
      ∃ x, s.Inside .pin x a ∧ (s.shm.pin x).data_ptr_addr = f + FUNCT_RUNTIME := by
  have hc := h.listed_carved (by decide) hf
  rcases ha with ha | rfl | rfl
  · exact .inr (h.timed_inside (hu.funct_timed f hf) ha)
  · exact .inl ⟨hc, FUNCT_MAXTIME, by decide, rfl⟩
  · exact .inl ⟨hc, FUNCT_MAXTIME_INCREASED, by decide, rfl⟩

theorem Inv.thread_word (hu : Unmeasured s) {t : Nat} (ht : s.shm.Listed .thread t) {a : Addr}
    (ha : s.ThreadWord t a) : s.Inside .thread t a ∨
      ∃ x, s.Inside .pin x a ∧ (s.shm.pin x).data_ptr_addr = t + THREAD_RUNTIME := by
  rcases ha with ha | rfl
  · exact .inr (h.timed_inside (hu.thread_timed t ht) ha)
  · exact .inl ⟨h.listed_carved (by decide) ht, THREAD_MAXTIME, by decide, rfl⟩

/-- Two cells are inside one structure only if they are. -/
theorem Inv.cells_apart {k k' : Kind} {x x' o o' : Nat} (hx : x ∈ s.shm.arena.carved k)
    (hx' : x' ∈ s.shm.arena.carved k') (ho : o < k.size) (ho' : o' < k'.size) {p p' : Nat} {a : Addr}
    (hp : s.Inside .pin p a ∧ (s.shm.pin p).data_ptr_addr = x + o)
    (hp' : s.Inside .pin p' a ∧ (s.shm.pin p').data_ptr_addr = x' + o') : k = k' ∧ x = x' := by
  obtain ⟨-, rfl⟩ := h.inside_inj hp.1 hp'.1
  exact h.good.shape.mem.place_inj hx hx' ho ho' (hp.2.symm.trans hp'.2)

/-- **No word of a function is a word of a thread.** -/
theorem Inv.word_apart (hu : Unmeasured s) {f t : Nat} (hf : s.shm.Listed .funct f)
    (ht : s.shm.Listed .thread t) {a : Addr} (ha : s.FunctWord f a) : ¬ s.ThreadWord t a := by
  intro ha'
  have hcf := h.listed_carved (by decide) hf
  have hct := h.listed_carved (by decide) ht
  rcases h.funct_word hu hf ha with hi | ⟨p, hp⟩
  · rcases h.thread_word hu ht ha' with hi' | ⟨p', hp', -⟩
    · exact absurd (h.inside_inj hi hi').1 (by decide)
    · exact absurd (h.inside_inj hi hp').1 (by decide)
  · rcases h.thread_word hu ht ha' with hi' | ⟨p', hp'⟩
    · exact absurd (h.inside_inj hp.1 hi').1 (by decide)
    · exact absurd (h.cells_apart hcf hct (by decide) (by decide) hp hp').1 (by decide)

/-- **Nor of another thread.** -/
theorem Inv.thread_apart (hu : Unmeasured s) {t t' : Nat} (ht : s.shm.Listed .thread t)
    (ht' : s.shm.Listed .thread t') (hne : t ≠ t') {a : Addr} (ha : s.ThreadWord t a) :
    ¬ s.ThreadWord t' a := by
  intro ha'
  have hc := h.listed_carved (by decide) ht
  have hc' := h.listed_carved (by decide) ht'
  rcases h.thread_word hu ht ha with hi | ⟨p, hp⟩
  · rcases h.thread_word hu ht' ha' with hi' | ⟨p', hp', -⟩
    · exact hne (h.inside_inj hi hi').2
    · exact absurd (h.inside_inj hi hp').1 (by decide)
  · rcases h.thread_word hu ht' ha' with hi' | ⟨p', hp'⟩
    · exact absurd (h.inside_inj hp.1 hi').1 (by decide)
    · exact hne (h.cells_apart hc hc' (by decide) (by decide) hp hp').2

/-- The two words of a thread are two. -/
theorem Inv.runtime_ne_maxtime (hu : Unmeasured s) {t : Nat} (ht : s.shm.Listed .thread t)
    (h₀ : s.shm.cell (t + THREAD_RUNTIME) ≠ 0) :
    s.shm.cell (t + THREAD_RUNTIME) ≠ s.hal_shmem_base + (t + THREAD_MAXTIME) := by
  intro e
  obtain ⟨x, hx, -⟩ := h.timed_inside (hu.thread_timed t ht) ⟨rfl, h₀⟩
  have hi : s.Inside .thread t (s.shm.cell (t + THREAD_RUNTIME)) :=
    ⟨h.listed_carved (by decide) ht, THREAD_MAXTIME, by decide, e⟩
  exact absurd (h.inside_inj hx hi).1 (by decide)

end

/-! ### What an export leaves -/

/-- Neither a cell nor a value changes. -/
def Unwritten (s s' : State σ) : Prop :=
  s'.hal_shmem_base = s.hal_shmem_base ∧ s'.shm.cell = s.shm.cell ∧ s'.shm.data = s.shm.data

instance : Std.Refl (Unwritten (σ := σ)) where
  refl _ := ⟨rfl, rfl, rfl⟩

instance : IsTrans (State σ) Unwritten where
  trans _ _ _ h h' := ⟨h'.1.trans h.1, h'.2.1.trans h.2.1, h'.2.2.trans h.2.2⟩

namespace Unwritten

variable {α : Type}

theorem walk {f : Segment → Option α} : Along Unwritten (walk f : Prog σ α) :=
  .bind .get fun s => by
    cases f s.shm with
    | none => exact .throw
    | some a => exact .pure

theorem walkTo {f : Segment → Option (α × Segment)}
    (h : ∀ m a m', f m = some (a, m') → m'.cell = m.cell ∧ m'.data = m.data) :
    Along Unwritten (walkTo f : Prog σ α) := by
  intro s
  unfold Hal.walkTo
  rw [wp_bind, wp_get]
  rcases hf : f s.shm with _ | ⟨a, m'⟩
  · exact Std.Refl.refl (r := Unwritten) s
  · exact ⟨rfl, h s.shm a m' hf⟩

theorem mutex_get : Along Unwritten (rtapi_mutex_get : Prog σ Unit) :=
  .bind .get fun _ => .ite .throw <| .bind (.modify fun _ => ⟨rfl, rfl, rfl⟩) fun _ =>
    .ite .throw (.modify fun _ => ⟨rfl, rfl, rfl⟩)

theorem mutex_give : Along Unwritten (rtapi_mutex_give : Prog σ Unit) :=
  .modify fun _ => ⟨rfl, rfl, rfl⟩

theorem insert_param (new : Nat) : Along Unwritten (insert_new .param (fun m x => (m.param x).name)
    (fun m x => some (m.free_param_struct x)) new : Prog σ Bool) :=
  .bind (walkTo fun m b m' h => by
    unfold Segment.insert_sorted at h
    obtain ⟨prev, -, h⟩ := Option.map_eq_some_iff.mp h
    simp only at h
    split_ifs at h <;> cases h <;> exact ⟨rfl, rfl⟩) fun _ =>
  .ite (.bind mutex_give fun _ => .pure) <| .bind (walkTo fun m _ m' h => by
    cases h
    unfold Segment.free_param_struct
    split_ifs <;> exact ⟨rfl, rfl⟩) fun _ => .bind mutex_give fun _ => .pure

theorem hal_param_new (name : CStr) (type : HalType) (dir : ParamDir) (data_addr : Addr)
    (comp_id : Int) :
    Along Unwritten (hal_param_new name type dir data_addr comp_id : Prog σ Int) :=
  .bind .get fun _ => .ite .pure <| .ite .pure <| .ite .pure <| .ite .pure <| .ite .pure <|
    .bind .get fun _ => .bind mutex_get fun _ => .bind walk fun _ =>
    .ite (.bind mutex_give fun _ => .pure) <| .ite (.bind mutex_give fun _ => .pure) <|
    .bind (.bind .get fun _ => .pure) fun _ => .ite (.bind mutex_give fun _ => .pure) <|
    .bind (.modifyGet fun s => by
      simp only [Segment.alloc_param_struct]
      split_ifs <;> exact ⟨rfl, rfl, rfl⟩) fun _ =>
    .ite (.bind mutex_give fun _ => .pure) <| .bind (.modify fun _ => ⟨rfl, rfl, rfl⟩) fun _ =>
    .bind (insert_param _) fun _ => .ite .pure .pure

end Unwritten

/-- The stores at the end of `hal_export_funct`. -/
theorem export_funct_pins_words (h : Inv s L) (name : CStr) (new : Nat) (comp_id : Int) :
    Wp (export_funct_pins name new comp_id) s
      (fun r s' => r = 0 → ∀ a, s'.FunctWord new a → s'.shm.data a = 0) fun _ _ => True := by
  unfold export_funct_pins storeThrough store
  rw [wp_bind, wp_get, wp_bind]
  refine (hal_pin_newf_spec h _ _ _ _).mono (fun r s₁ ⟨hr, _⟩ => ?_) fun _ _ _ => trivial
  obtain ⟨-, L₁, h₁, -⟩ := hr
  refine .ite (fun _ e => absurd e (by decide)) fun _ => ?_
  rw [wp_bind, wp_bind, wp_look]
  refine .ite (fun _ => trivial) fun _ => ?_
  rw [wp_change, wp_bind, wp_change, wp_bind]
  refine (Unwritten.hal_param_new _ _ _ _ _ _).mono (fun _ s₂ h₂ => ?_) fun _ _ _ => trivial
  rw [wp_bind, wp_change, wp_bind]
  refine (Unwritten.hal_param_new _ _ _ _ _ _).mono (fun _ s₃ h₃ => ?_) fun _ _ _ => trivial
  obtain ⟨hb₂, hc₂, hd₂⟩ := h₂
  obtain ⟨hb₃, hc₃, hd₃⟩ := h₃
  have hb : s₃.hal_shmem_base = s.hal_shmem_base := hb₃.trans (hb₂.trans h₁.base)
  have hc : s₃.shm.cell = s₁.shm.cell := hc₃.trans hc₂
  -- the three stores, the last one first
  have hd : ∀ x, s₃.shm.data x = if x = s.hal_shmem_base + (new + FUNCT_MAXTIME_INCREASED) then 0
      else if x = s.hal_shmem_base + (new + FUNCT_MAXTIME) then 0
      else if x = s₁.shm.cell (new + FUNCT_RUNTIME) then 0 else s₁.shm.data x := fun x => by
    rw [hd₃]
    simp only [Segment.setData, hd₂, Function.update_apply]
  intro _ a ha
  rw [hd a]
  rcases ha with ⟨rfl, -⟩ | rfl | rfl
  · rw [hc]
    simp
  · rw [hb]
    simp
  · rw [hb]
    simp

/-- **A function is exported** with 0 in its words. -/
theorem hal_export_funct_words (hinv : Inv s L) (name : CStr) (funct arg : Addr)
    (uses_fp reentrant comp_id : Int) :
    Returns (hal_export_funct name funct arg uses_fp reentrant comp_id) s fun r s' => r = 0 →
      ∃ f, ¬ s.shm.Listed .funct f ∧ s'.shm.Listed .funct f ∧
        ∀ a, s'.FunctWord f a → s'.shm.data a = 0 := by
  have hE : -EINVAL ≠ 0 := by decide
  unfold hal_export_funct
  simp only [returns_bind, returns_get]
  refine .ite (fun _ e => absurd e hE) fun _ => .ite (fun _ e => absurd e hE) fun hn =>
    .ite (fun _ e => absurd e (by decide)) fun hl => ?_
  rw [returns_bind]
  refine (export_funct_new_made hinv hn hl funct arg uses_fp reentrant comp_id).mono
    fun made s₁ hmade => ?_
  cases hmade with
  | refused _ he _ _ _ => exact fun e0 => absurd e0 he
  | @listed c f _ L₁ hpub hfound _ _ _ hm _ _ =>
      have hfound₁ : (view s₁.shm L₁).findComp comp_id = some (c, s.shm.comp c) := by
        rw [hm.events]
        exact hfound
      refine (export_funct_pins_found hm.inv hfound₁ hpub.unready (hm.lock.symm ▸ hl) name
        hm.added_funct).with_eq.mono fun r s₂ hpost e0 => ?_
      obtain ⟨hrun, hs₂⟩ := hpost
      refine ⟨new_funct s, fun hlisted => ?_, ?_,
        (export_funct_pins_words hm.inv name (new_funct s) comp_id).of_ok hrun e0⟩
      · exact (hinv.good.shape.alloc (by decide) (by decide) hpub.room).2.grab_fresh (by decide)
          (hinv.good.shape.listed.mp hlisted)
      · rcases hs₂ with ⟨-, rfl, -⟩ | ⟨-, -, x, p, evs₁, evs₂, L₂, h₂, -, -, -, hg⟩
        · exact absurd e0 hE
        -- the pin and the parameters leave the functions
        have hfuncts : (view s₂.shm L₂).functs = (view s₁.shm L₁).functs := by
          rw [h₂.events, Registry.applyAll_cons, Registry.applyAll_append]
          exact hg.keeps Registry.functs (fun _ _ _ => rfl) _
        have hmem : (new_funct s, s₁.shm.funct (new_funct s)) ∈ (view s₂.shm L₂).functs := by
          rw [hfuncts]
          exact mem_tab.mpr ⟨hm.added_funct, rfl⟩
        exact h₂.inv.good.shape.listed.mpr (mem_tab.mp hmem).1

/-! ### What the clock measures -/

/-- A call of a function, or a cycle of a thread, and how long it took. -/
structure Measured where
  who : Nat
  time : Int
  deriving DecidableEq

/-- How long one of them took, each time, in the order of the list. -/
def durations (x : Nat) (l : List Measured) : List Int :=
  (l.filter fun c => c.who = x).map Measured.time

/-- The longest of them; `maxtime` starts at 0. -/
def longest (ds : List Int) : Int := ds.foldr max 0

theorem longest_cons (d : Int) (ds : List Int) : longest (d :: ds) = max d (longest ds) := rfl

theorem le_longest {d : Int} {ds : List Int} (h : d ∈ ds) : d ≤ longest ds := by
  induction ds with
  | nil => cases h
  | cons e ds ih =>
      rw [longest_cons]
      rcases List.mem_cons.mp h with rfl | h
      · exact Int.le_max_left _ _
      · exact Int.le_trans (ih h) (Int.le_max_right _ _)

theorem longest_zero {ds : List Int} (h : ∀ d ∈ ds, d = 0) : longest ds = 0 := by
  induction ds with
  | nil => rfl
  | cons e ds ih =>
      rw [longest_cons, h e List.mem_cons_self, ih fun d hd => h d (List.mem_cons_of_mem _ hd)]
      rfl

theorem mem_durations {x : Nat} {d : Int} {l : List Measured} :
    d ∈ durations x l ↔ ⟨x, d⟩ ∈ l := by
  simp only [durations, List.mem_map, List.mem_filter, decide_eq_true_eq]
  constructor
  · rintro ⟨⟨y, e⟩, ⟨hc, rfl⟩, rfl⟩
    exact hc
  · exact fun hc => ⟨_, ⟨hc, rfl⟩, rfl⟩

theorem durations_self (x : Nat) (d : Int) (l : List Measured) :
    durations x (⟨x, d⟩ :: l) = d :: durations x l := by
  simp [durations]

theorem durations_of_ne {x y : Nat} (h : y ≠ x) (d : Int) (l : List Measured) :
    durations x (⟨y, d⟩ :: l) = durations x l := by
  simp [durations, h]

variable (R) in
/-- The calls for the entries `es`, when the last reading was `prev`: the time of each is the reading
after it less the reading before. -/
def measure (m : Segment) : List Nat → Int → σ → List Measured
  | [], _, _ => []
  | e :: es, prev, rt =>
      ⟨(m.entry e).funct_ptr, (R.get_clocks rt).1 - prev⟩ ::
        measure m es (R.get_clocks rt).1 (R.get_clocks rt).2

variable (R) in
/-- The last reading, and RTAPI after it. -/
def last_reading : List Nat → Int → σ → Int × σ
  | [], prev, rt => (prev, rt)
  | _ :: es, _, rt => last_reading es (R.get_clocks rt).1 (R.get_clocks rt).2

/-- The cycle took as long as its calls. -/
theorem last_reading_eq (m : Segment) (es : List Nat) (prev : Int) (rt : σ) :
    (last_reading R es prev rt).1 = prev + ((measure R m es prev rt).map Measured.time).sum := by
  induction es generalizing prev rt with
  | nil => simp [last_reading, measure]
  | cons e es ih =>
      simp only [last_reading, measure, ih, List.map_cons, List.sum_cons]
      omega

/-! ### One cycle -/

/-- What the code of a function does to the values in memory. -/
abbrev Code : Type := Addr → Addr → Int → (Addr → Int) → (Addr → Int)

/-- The code leaves the values at `W` alone. -/
def Leaves (code : Code) (W : Addr → Prop) : Prop :=
  ∀ a, W a → ∀ funct arg period data, code funct arg period data a = data a

variable {code : Code} {W : Addr → Prop}

/-- **The loop over the schedule** reads the clock once for each function, and does not change a word
when the words of the functions are 0. -/
theorem run_functs_measured (hcode : Leaves code W) {t : Nat} {xs ys : List Nat}
    (h : Shape s.shm.arena L) (hr : t + THREAD_FUNCT_LIST ∈ L.roots)
    (hs : L.ring (t + THREAD_FUNCT_LIST) = xs ++ ys)
    (hf : ∀ e ∈ ys, (s.shm.entry e).funct_ptr ≠ 0)
    (hw : ∀ e ∈ ys, ∀ a, s.FunctWord (s.shm.entry e).funct_ptr a → W a ∧ s.shm.data a = 0)
    {fuel : Nat} (hfuel : ys.length < fuel) (end_time : Int) :
    Wp (run_functs R code t fuel (ys.headD (t + THREAD_FUNCT_LIST)) end_time) s (fun r s' =>
      r = (last_reading R ys end_time s.rt).1 ∧ ∃ cs data,
        s' = s.ran cs data (last_reading R ys end_time s.rt).2 ∧ ∀ a, W a → data a = s.shm.data a)
      fun _ _ => True := by
  induction ys generalizing s xs fuel end_time with
  | nil =>
      obtain ⟨n, rfl⟩ : ∃ n, fuel = n + 1 := ⟨fuel - 1, by simp at hfuel; omega⟩
      rw [List.headD_nil, run_functs]
      refine .ite (fun _ => ⟨rfl, [], s.shm.data, rfl, fun _ _ => rfl⟩) fun hne => absurd rfl hne
  | cons y ys ih =>
      obtain ⟨n, rfl⟩ : ∃ n, fuel = n + 1 := ⟨fuel - 1, by simp at hfuel; omega⟩
      have hnd := h.rings.nodup _ hr
      have hyr : y ≠ t + THREAD_FUNCT_LIST := fun e =>
        (List.nodup_cons.mp hnd).1 (by rw [hs, e]; simp)
      have hnext : s.shm.arena.links.next y = ys.headD (t + THREAD_FUNCT_LIST) :=
        h.next_after hr hs
      -- the rest of the loop, from any values that agree at the words
      have hgo : ∀ data, (∀ a, W a → data a = s.shm.data a) →
          Wp (run_functs R code t n (ys.headD (t + THREAD_FUNCT_LIST)) (R.get_clocks s.rt).1)
            (s.ran [call_of (s.shm.thread t) (s.shm.entry y)] data (R.get_clocks s.rt).2)
            (fun r s' => r = (last_reading R (y :: ys) end_time s.rt).1 ∧ ∃ cs data,
              s' = s.ran cs data (last_reading R (y :: ys) end_time s.rt).2 ∧
                ∀ a, W a → data a = s.shm.data a) fun _ _ => True := by
        intro data hdata
        have hs' : L.ring (t + THREAD_FUNCT_LIST) = (xs ++ [y]) ++ ys := by simp [hs]
        refine (ih (s := s.ran _ data (R.get_clocks s.rt).2) h hs'
          (fun e he => hf e (List.mem_cons_of_mem _ he)) (fun e he a ha => ?_)
          (by simp at hfuel; omega) (R.get_clocks s.rt).1).mono (fun r s' hpost => ?_) fun _ _ => id
        · obtain ⟨hwa, h0⟩ := hw e (List.mem_cons_of_mem _ he) a ha
          exact ⟨hwa, (hdata a hwa).trans h0⟩
        · obtain ⟨hr', cs, data', hs', hd⟩ := hpost
          refine ⟨hr', cs ++ [call_of (s.shm.thread t) (s.shm.entry y)], data', ?_,
            fun a ha => (hd a ha).trans (hdata a ha)⟩
          rw [hs']
          simp [State.ran, last_reading]
      rw [List.headD_cons, run_functs]
      refine .ite (fun e => absurd e hyr) fun _ => ?_
      rw [wp_bind, wp_get, wp_bind]
      refine wp_jump_or (fun _ => ?_) fun _ => trivial
      simp only [wp_bind, wp_modify, wp_call]
      refine .ite (fun h0 => absurd h0 (hf y List.mem_cons_self)) fun _ => ?_
      have hcalled : ∀ a, W a → code (s.shm.entry y).funct (s.shm.entry y).arg (s.shm.thread t).period
          s.shm.data a = s.shm.data a := fun a ha => hcode a ha _ _ _ _
      have hword := hw y List.mem_cons_self
      rw [wp_bind, wp_look]
      refine .ite (fun hcell => ?_) fun _ => ?_
      · rw [wp_bind, wp_change, wp_bind, wp_look]
        obtain ⟨hwr, hr0⟩ := hword _ (.inl ⟨rfl, hcell⟩)
        obtain ⟨hwm, hm0⟩ := hword _ (.inr (.inl rfl))
        obtain ⟨hwi, hi0⟩ := hword _ (.inr (.inr rfl))
        split_ifs with hgt
        · -- 0 does not raise 0
          have hlt := hgt
          dsimp only at hlt
          rw [hcalled _ hwr, hcalled _ hwm, hr0, hm0] at hlt
          exact absurd hlt (Int.lt_irrefl 0)
        · simp only [Segment.setData, hnext]
          refine hgo _ fun a ha => ?_
          by_cases he : a = s.hal_shmem_base + ((s.shm.entry y).funct_ptr + FUNCT_MAXTIME_INCREASED)
          · rw [he, hi0]
            exact Function.update_self ..
          · exact (Function.update_of_ne he _ _).trans (hcalled a ha)
      · rw [wp_bind, wp_look]
        simp only [hnext]
        exact hgo _ hcalled

/-- The entries on the ring of the thread. -/
def Segment.Schedule (m : Segment) (t : Nat) (es : List Nat) : Prop :=
  Ring m.arena.links (t + THREAD_FUNCT_LIST) es ∧ t + THREAD_FUNCT_LIST ∉ es

theorem Inv.schedule_eq (h : Inv s L) {t : Nat} {es : List Nat} (ht : t ∈ L.act .thread)
    (hes : s.shm.Schedule t es) : L.ring (t + THREAD_FUNCT_LIST) = es := by
  have hroot : t + THREAD_FUNCT_LIST ∈ L.roots := Shape.thread_root (.inl ht)
  have hnd := List.nodup_cons.mp (h.good.shape.rings.nodup _ hroot)
  exact Arc.unique (h.good.shape.rings.closed _ hroot) hes.1 hnd.1 hes.2

/-- The function of an entry on a schedule is on the list of functions. -/
theorem Inv.scheduled_listed (h : Inv s L) {t : Nat} {es : List Nat} (ht : s.shm.Listed .thread t)
    (hes : s.shm.Schedule t es) {e : Nat} (he : e ∈ es) :
    s.shm.Listed .funct (s.shm.entry e).funct_ptr := by
  have hact := h.good.shape.listed.mp ht
  rw [← h.schedule_eq hact hes] at he
  obtain ⟨p, hp, hpe, -⟩ := h.good.sound.linked (e, s.shm.entry e)
    (mem_entries.mpr ⟨t, hact, he, rfl⟩)
  rw [← hpe]
  exact h.good.shape.listed.mpr (mem_tab.mp hp).1

variable (R) in
/-- How long the cycle of a thread with the schedule `es` takes. -/
def cycle_time (s : State σ) (es : List Nat) : Int :=
  (last_reading R es (R.get_clocks s.rt).1 (R.get_clocks s.rt).2).1 - (R.get_clocks s.rt).1

variable (R) in
/-- The calls of the cycle, the first one first. -/
def cycle_calls (s : State σ) (es : List Nat) : List Measured :=
  measure R s.shm es (R.get_clocks s.rt).1 (R.get_clocks s.rt).2

/-- The end of a cycle: a value is stored through a cell, and at `x` if it is more than the one
there. -/
theorem settle_words (s : State σ) (c : Nat) (x : Addr) (v : Int)
    (hne : s.shm.cell c ≠ 0 → s.shm.cell c ≠ x) :
    Wp (do
      let runtime ← look fun m => m.cell c
      store runtime v
      change fun m => if m.data runtime > m.data x then m.setData x (m.data runtime) else m) s
      (fun _ s' => s.shm.cell c ≠ 0 ∧ ∃ data, s' = s.ran [] data s.rt ∧ data (s.shm.cell c) = v ∧
        data x = max v (s.shm.data x) ∧ ∀ a, a ≠ s.shm.cell c → a ≠ x → data a = s.shm.data a)
      fun _ _ => True := by
  rw [wp_bind, wp_look, wp_bind]
  refine .ite (fun _ => trivial) fun hcell => ?_
  replace hne := hne hcell
  set r := s.shm.cell c
  rw [wp_change, wp_change]
  refine ⟨hcell, ?_⟩
  have hv : Function.update s.shm.data r v r = v := Function.update_self ..
  have hx : Function.update s.shm.data r v x = s.shm.data x := Function.update_of_ne hne.symm ..
  by_cases hgt : v > s.shm.data x
  · refine ⟨Function.update (Function.update s.shm.data r v) x v, ?_, ?_, ?_, fun a har hax => ?_⟩
    · simp [Segment.setData, State.ran, hx, hgt]
    · rw [Function.update_of_ne hne, hv]
    · rw [Function.update_self, Int.max_eq_left (Int.le_of_lt hgt)]
    · rw [Function.update_of_ne hax, Function.update_of_ne har]
  · refine ⟨Function.update s.shm.data r v, ?_, hv, ?_, fun a har _ => Function.update_of_ne har ..⟩
    · simp [Segment.setData, State.ran, hx, hgt]
    · rw [hx, Int.max_eq_right (Int.not_lt.mp hgt)]

/-- **A cycle with functions.**  It sets the two words of its thread, and leaves the other words. -/
theorem cycle_words (h : Inv s L) (hcode : Leaves code W) {t : Nat} {es : List Nat}
    (ht : s.shm.Listed .thread t) (hes : s.shm.Schedule t es) (hne : es ≠ [])
    (hrun : s.shm.threads_running > 0)
    (hw : ∀ f, s.shm.Listed .funct f → ∀ a, s.FunctWord f a → W a ∧ s.shm.data a = 0)
    (hwm : W (s.hal_shmem_base + (t + THREAD_MAXTIME)))
    (hsep : s.shm.cell (t + THREAD_RUNTIME) ≠ 0 →
      s.shm.cell (t + THREAD_RUNTIME) ≠ s.hal_shmem_base + (t + THREAD_MAXTIME)) :
    Wp (thread_task_cycle R code t) s (fun _ s' => s.shm.cell (t + THREAD_RUNTIME) ≠ 0 ∧
        ∃ cs data rt, s' = s.ran cs data rt ∧
        data (s.shm.cell (t + THREAD_RUNTIME)) = toInt32 (cycle_time R s es) ∧
        data (s.hal_shmem_base + (t + THREAD_MAXTIME)) = max (toInt32 (cycle_time R s es))
          (s.shm.data (s.hal_shmem_base + (t + THREAD_MAXTIME))) ∧
        ∀ a, W a → ¬ s.ThreadWord t a → data a = s.shm.data a) fun _ _ => True := by
  have hact := h.good.shape.listed.mp ht
  have hroot : t + THREAD_FUNCT_LIST ∈ L.roots := Shape.thread_root (.inl hact)
  have hring := h.schedule_eq hact hes
  have hnext := h.good.shape.next_root hroot
  have hf : ∀ e ∈ es, (s.shm.entry e).funct_ptr ≠ 0 := fun e he =>
    h.good.shape.act_ne_zero (h.good.shape.listed.mp (h.scheduled_listed ht hes he))
  rw [hring] at hnext
  unfold thread_task_cycle
  rw [wp_bind, wp_get]
  refine .ite (fun _ => ?_) fun hn => absurd hrun hn
  rw [wp_bind, wp_look, hnext]
  refine .ite (fun _ => ?_) fun hempty => ?_
  swap
  · rcases es with _ | ⟨e, es⟩
    · exact absurd rfl hne
    · have he : e = t + THREAD_FUNCT_LIST := by simpa using hempty
      exact absurd (List.mem_cons.mpr (.inl he.symm)) hes.2
  rw [wp_bind, wp_call, wp_bind]
  have hloop := run_functs_measured (R := R) (s := { s with rt := (R.get_clocks s.rt).2 }) (t := t)
    hcode h.good.shape hroot (hring.trans (List.nil_append _).symm) hf
    (fun e he => hw _ (h.scheduled_listed ht hes he)) (hring ▸ h.good.shape.ring_short hroot)
    (R.get_clocks s.rt).1
  refine hloop.mono (fun r s₁ ⟨hr, cs, data, hs₁, hdata⟩ => ?_) fun _ _ => id
  have hcell : s₁.shm.cell = s.shm.cell := by rw [hs₁]; rfl
  have htime : r - (R.get_clocks s.rt).1 = cycle_time R s es := by rw [hr]; rfl
  rw [htime]
  refine (settle_words s₁ (t + THREAD_RUNTIME) _ _ (hcell ▸ hsep)).mono
    (fun _ s₂ ⟨h₀, data₂, hs₂, hruntime, hmaxtime, hrest⟩ => ?_) fun _ _ => id
  rw [hcell] at h₀ hruntime hrest
  have hdata₁ : ∀ a, W a → s₁.shm.data a = s.shm.data a := by rw [hs₁]; exact hdata
  refine ⟨h₀, cs, data₂, s₁.rt, ?_, hruntime, ?_, fun a ha hno => ?_⟩
  · rw [hs₂, hs₁]
    rfl
  · rw [hmaxtime, hdata₁ _ hwm]
  · refine (hrest a (fun e => hno (.inl ⟨e, ?_⟩)) fun e => hno (.inr e)).trans (hdata₁ a ha)
    exact e ▸ h₀

/-! ### Cycles one after another -/

/-- `a` is a statistic of a function or a thread on its list. -/
def State.Word (s : State σ) (a : Addr) : Prop :=
  (∃ f, s.shm.Listed .funct f ∧ s.FunctWord f a) ∨ ∃ t, s.shm.Listed .thread t ∧ s.ThreadWord t a

variable (R) in
/-- Cycles of the threads from `s₀` on, with the calls and the cycles that the clock has measured,
newest first.  The clock does not go back, and no function writes a statistic. -/
inductive Cycled (s₀ : State σ) : List Measured → List Measured → State σ → Prop
  | start : Cycled s₀ [] [] s₀
  | idle {calls cycles : List Measured} {s s' : State σ} (code : Code) (t : Nat) :
      Cycled s₀ calls cycles s → s.shm.Listed .thread t →
      ¬ s.shm.threads_running > 0 ∨ s.shm.Schedule t [] →
      thread_task_cycle R code t s = .ok () s' → Cycled s₀ calls cycles s'
  | cycle {calls cycles : List Measured} {s s' : State σ} (code : Code) (t : Nat) (es : List Nat) :
      Cycled s₀ calls cycles s → s.shm.Listed .thread t → s.shm.threads_running > 0 →
      s.shm.Schedule t es → es ≠ [] → Leaves code s.Word →
      (∀ c ∈ cycle_calls R s es, 0 ≤ c.time) → thread_task_cycle R code t s = .ok () s' →
      Cycled s₀ ((cycle_calls R s es).reverse ++ calls) (⟨t, cycle_time R s es⟩ :: cycles) s'

/-- The statistics are those of the calls and the cycles so far: of a function the last duration in
its pin, the longest one in `maxtime`, and in `maxtime_increased` whether the last was longer than
those before; of a thread the last and the longest. -/
structure Faithful (s : State σ) (calls cycles : List Measured) : Prop where
  funct_runtime : ∀ f d ds, durations f calls = d :: ds → s.shm.cell (f + FUNCT_RUNTIME) ≠ 0 →
    s.shm.data (s.shm.cell (f + FUNCT_RUNTIME)) = d
  funct_maxtime : ∀ f d ds, durations f calls = d :: ds →
    s.shm.data (s.hal_shmem_base + (f + FUNCT_MAXTIME)) = longest (d :: ds)
  funct_increased : ∀ f d ds, durations f calls = d :: ds →
    (s.shm.data (s.hal_shmem_base + (f + FUNCT_MAXTIME_INCREASED)) ≠ 0 ↔ d > longest ds)
  thread_runtime : ∀ t d ds, durations t cycles = d :: ds →
    s.shm.data (s.shm.cell (t + THREAD_RUNTIME)) = d
  thread_maxtime : ∀ t d ds, durations t cycles = d :: ds →
    s.shm.data (s.hal_shmem_base + (t + THREAD_MAXTIME)) = longest (d :: ds)

theorem toInt32_of_lt {x : Int} (h₀ : 0 ≤ x) (h₁ : x < 2 ^ 31) : toInt32 x = x := by
  unfold toInt32
  exact Int.bmod_eq_of_le_mul_two (by omega) (by omega)

/-- What the words hold after any cycles. -/
structure Tracked (s₀ : State σ) (calls cycles : List Measured) (s : State σ) : Prop where
  ran : ∃ cs data rt, s = s₀.ran cs data rt
  functs : ∀ f, s₀.shm.Listed .funct f → ∀ a, s₀.FunctWord f a → s.shm.data a = 0
  called : ∀ c ∈ calls, s₀.shm.Listed .funct c.who ∧ 0 ≤ c.time
  cycled : ∀ c ∈ cycles, s₀.shm.Listed .thread c.who ∧ s₀.shm.cell (c.who + THREAD_RUNTIME) ≠ 0
  still : (∀ c ∈ calls, c.time = 0) → ∀ c ∈ cycles, c.time = 0
  threads : (∀ c ∈ cycles, c.time < 2 ^ 31) → ∀ t, s₀.shm.Listed .thread t →
    s.shm.data (s₀.hal_shmem_base + (t + THREAD_MAXTIME)) = longest (durations t cycles) ∧
      ∀ d ds, durations t cycles = d :: ds → s.shm.data (s₀.shm.cell (t + THREAD_RUNTIME)) = d

theorem Unmeasured.tracked (hu : Unmeasured s) : Tracked s [] [] s where
  ran := ⟨[], s.shm.data, s.rt, rfl⟩
  functs f hf a ha := by
    rcases ha with ⟨rfl, h₀⟩ | rfl | rfl
    · exact hu.funct_runtime f hf h₀
    · exact hu.funct_maxtime f hf
    · exact hu.funct_increased f hf
  called c hc := absurd hc List.not_mem_nil
  cycled c hc := absurd hc List.not_mem_nil
  still _ c hc := absurd hc List.not_mem_nil
  threads _ t ht := ⟨hu.thread_maxtime t ht, fun d ds e => nomatch e⟩

/-- The calls of a cycle are for functions on the list. -/
theorem measure_who {m : Segment} {es : List Nat} {prev : Int} {rt : σ} {c : Measured}
    (hc : c ∈ measure R m es prev rt) : ∃ e ∈ es, c.who = (m.entry e).funct_ptr := by
  induction es generalizing prev rt with
  | nil => exact absurd hc List.not_mem_nil
  | cons e es ih =>
      rcases List.mem_cons.mp hc with rfl | hc
      · exact ⟨e, List.mem_cons_self, rfl⟩
      · obtain ⟨e', he', hw⟩ := ih hc
        exact ⟨e', List.mem_cons_of_mem _ he', hw⟩

theorem cycle_time_eq (s : State σ) (es : List Nat) :
    cycle_time R s es = ((cycle_calls R s es).map Measured.time).sum := by
  unfold cycle_time cycle_calls
  rw [last_reading_eq s.shm]
  omega

theorem thread_task_cycle_empty {t : Nat} (hes : s.shm.Schedule t []) :
    Returns (thread_task_cycle R code t) s fun _ s' => s' = s := by
  unfold thread_task_cycle Returns
  rw [wp_bind, wp_get]
  refine .ite (fun _ => ?_) fun _ => rfl
  rw [wp_bind, wp_look]
  exact .ite (fun hne => absurd hes.1.1 hne) fun _ => rfl

/-- **One cycle.** -/
theorem Tracked.cycle (h : Inv s₀ L) (hu : Unmeasured s₀) {calls cycles : List Measured}
    (hk : Tracked s₀ calls cycles s) {t : Nat} {es : List Nat} (ht : s.shm.Listed .thread t)
    (hrun : s.shm.threads_running > 0) (hes : s.shm.Schedule t es) (hne : es ≠ [])
    (hcode : Leaves code s.Word) (hclock : ∀ c ∈ cycle_calls R s es, 0 ≤ c.time)
    (hc : thread_task_cycle R code t s = .ok () s') :
    Tracked s₀ ((cycle_calls R s es).reverse ++ calls) (⟨t, cycle_time R s es⟩ :: cycles) s' := by
  obtain ⟨cs, data, rt, rfl⟩ := hk.ran
  have hinv : Inv (s₀.ran cs data rt) L := h.ran cs data rt
  obtain ⟨h₀, cs', data', rt', rfl, hruntime, hmaxtime, hrest⟩ := (cycle_words hinv hcode ht hes hne
    hrun (fun f hf a ha => ⟨.inl ⟨f, hf, ha⟩, hk.functs f hf a ha⟩) (.inr ⟨t, ht, .inr rfl⟩)
    (h.runtime_ne_maxtime hu ht)).of_ok hc
  have htime : 0 ≤ cycle_time R (s₀.ran cs data rt) es := by
    rw [cycle_time_eq]
    refine List.sum_nonneg fun x hx => ?_
    obtain ⟨c, hc, rfl⟩ := List.mem_map.mp hx
    exact hclock c hc
  -- the words of the others
  have hother : ∀ a, s₀.Word a → ¬ s₀.ThreadWord t a → data' a = data a := hrest
  constructor
  · exact ⟨cs' ++ cs, data', rt', by simp [State.ran]⟩
  · intro f hf a ha
    exact (hother a (.inl ⟨f, hf, ha⟩) (h.word_apart hu hf ht ha)).trans (hk.functs f hf a ha)
  · intro c hc
    rcases List.mem_append.mp hc with hc | hc
    · obtain ⟨e, he, hw⟩ := measure_who (List.mem_reverse.mp hc)
      exact ⟨hw ▸ hinv.scheduled_listed ht hes he, hclock c (List.mem_reverse.mp hc)⟩
    · exact hk.called c hc
  · intro c hc
    rcases List.mem_cons.mp hc with rfl | hc
    · exact ⟨ht, h₀⟩
    · exact hk.cycled c hc
  · intro hz c hc
    rcases List.mem_cons.mp hc with rfl | hc
    · show cycle_time R _ es = 0
      rw [cycle_time_eq]
      refine List.sum_eq_zero fun x hx => ?_
      obtain ⟨c, hc, rfl⟩ := List.mem_map.mp hx
      exact hz c (List.mem_append_left _ (List.mem_reverse.mpr hc))
    · exact hk.still (fun c hc => hz c (List.mem_append_right _ hc)) c hc
  · intro hfit t' ht'
    obtain ⟨hmax', hlast'⟩ := hk.threads (fun c hc => hfit c (List.mem_cons_of_mem _ hc)) t' ht'
    have hcast : toInt32 (cycle_time R (s₀.ran cs data rt) es) =
        cycle_time R (s₀.ran cs data rt) es := toInt32_of_lt htime (hfit _ List.mem_cons_self)
    rw [hcast] at hruntime hmaxtime
    by_cases e : t = t'
    · subst e
      rw [durations_self]
      refine ⟨hmaxtime.trans (congrArg _ hmax'), fun d ds e => ?_⟩
      cases e
      exact hruntime
    · rw [durations_of_ne e]
      have hsame : ∀ a, s₀.ThreadWord t' a → data' a = data a := fun a ha =>
        hother a (.inr ⟨t', ht', ha⟩) (h.thread_apart hu ht' ht (Ne.symm e) ha)
      refine ⟨(hsame _ (.inr rfl)).trans hmax', fun d ds hds => ?_⟩
      have hmem : (⟨t', d⟩ : Measured) ∈ cycles := mem_durations.mp (hds ▸ List.mem_cons_self)
      exact (hsame _ (.inl ⟨rfl, (hk.cycled _ hmem).2⟩)).trans (hlast' d ds hds)

/-- **Any cycles.** -/
theorem Cycled.tracked (h : Inv s₀ L) (hu : Unmeasured s₀) {calls cycles : List Measured}
    (hc : Cycled R s₀ calls cycles s) : Tracked s₀ calls cycles s := by
  induction hc with
  | start => exact hu.tracked
  | idle code t _ _ hidle hok ih =>
      rcases hidle with hrun | hes
      · rwa [(thread_task_cycle_idle hrun).of_ok hok]
      · rwa [(thread_task_cycle_empty hes).of_ok hok]
  | cycle code t es _ ht hrun hes hne hcode hclock hok ih =>
      exact ih.cycle h hu ht hrun hes hne hcode hclock hok

/-! ### What the statistics show -/

/-- **The words of a thread** are the last and the longest of its cycles, as long as these fit in 31
bits. -/
theorem thread_statistics (h : Reachable R s₀) (hu : Unmeasured s₀) {calls cycles : List Measured}
    (hc : Cycled R s₀ calls cycles s) (hfit : ∀ c ∈ cycles, c.time < 2 ^ 31) {t : Nat}
    (ht : s₀.shm.Listed .thread t) {d : Int} {ds : List Int} (hds : durations t cycles = d :: ds) :
    s.shm.data (s.shm.cell (t + THREAD_RUNTIME)) = d ∧
      s.shm.data (s.hal_shmem_base + (t + THREAD_MAXTIME)) = longest (d :: ds) := by
  obtain ⟨L, hinv⟩ := h.inv
  have hk := hc.tracked hinv hu
  obtain ⟨cs, data, rt, rfl⟩ := hk.ran
  obtain ⟨hmax, hlast⟩ := hk.threads hfit t ht
  exact ⟨hlast d ds hds, hds ▸ hmax⟩

variable {calls cycles : List Measured}

/-- `maxtime` is 0 whatever was measured. -/
theorem Tracked.standing (hk : Tracked s₀ calls cycles s) (hf : Faithful s calls cycles) {c : Measured}
    (hc : c ∈ calls) : c.time = 0 := by
  obtain ⟨hlisted, hpos⟩ := hk.called c hc
  have hmem : c.time ∈ durations c.who calls := mem_durations.mpr hc
  rcases hds : durations c.who calls with _ | ⟨d, ds⟩
  · rw [hds] at hmem
    exact absurd hmem List.not_mem_nil
  have hmax := hf.funct_maxtime c.who d ds hds
  obtain ⟨cs, data, rt, rfl⟩ := hk.ran
  have hzero := hk.functs c.who hlisted _ (.inr (.inl rfl))
  have hle := le_longest (hds ▸ hmem)
  rw [← hmax] at hle
  exact Int.le_antisymm (hzero ▸ hle) hpos

/-- Where no call took any time, 0 is right, and no cycle took any either. -/
theorem Tracked.faithful (hk : Tracked s₀ calls cycles s) (hz : ∀ c ∈ calls, c.time = 0) :
    Faithful s calls cycles := by
  have hfit : ∀ c ∈ cycles, c.time < 2 ^ 31 := fun c hc => by
    rw [hk.still hz c hc]
    decide
  have hfunct : ∀ f d ds, durations f calls = d :: ds → s₀.shm.Listed .funct f := fun f d ds e =>
    (hk.called ⟨f, d⟩ (mem_durations.mp (e ▸ List.mem_cons_self))).1
  have hthread : ∀ t d ds, durations t cycles = d :: ds → s₀.shm.Listed .thread t :=
    fun t d ds e => (hk.cycled ⟨t, d⟩ (mem_durations.mp (e ▸ List.mem_cons_self))).1
  have hzero : ∀ f, ∀ d ∈ durations f calls, d = 0 := fun f d hd => hz _ (mem_durations.mp hd)
  obtain ⟨cs, data, rt, rfl⟩ := hk.ran
  constructor
  · intro f d ds e h₀
    refine (hk.functs f (hfunct f d ds e) _ (.inl ⟨rfl, h₀⟩)).trans ?_
    exact (hzero f d (e ▸ List.mem_cons_self)).symm
  · intro f d ds e
    refine (hk.functs f (hfunct f d ds e) _ (.inr (.inl rfl))).trans ?_
    exact (longest_zero fun d' hd => hzero f d' (e ▸ hd)).symm
  · intro f d ds e
    have hds : longest ds = 0 :=
      longest_zero fun d' hd => hzero f d' (e ▸ List.mem_cons_of_mem d hd)
    rw [hds, hzero f d (e ▸ List.mem_cons_self)]
    refine iff_of_false (fun hne => hne ?_) (Int.lt_irrefl 0)
    exact hk.functs f (hfunct f d ds e) _ (.inr (.inr rfl))
  · intro t d ds e
    exact (hk.threads hfit t (hthread t d ds e)).2 d ds e
  · intro t d ds e
    exact e ▸ (hk.threads hfit t (hthread t d ds e)).1

/-- **The statistics are faithful** if and only if no call has taken any time. -/
theorem statistics_iff (h : Reachable R s₀) (hu : Unmeasured s₀)
    (hc : Cycled R s₀ calls cycles s) : Faithful s calls cycles ↔ ∀ c ∈ calls, c.time = 0 := by
  obtain ⟨L, hinv⟩ := h.inv
  have hk := hc.tracked hinv hu
  exact ⟨fun hf c hc => hk.standing hf hc, hk.faithful⟩

/-! ### A thread that runs once -/

/-- A system whose clock moves between two readings, or stands still. -/
def timing (moves : Bool) (n : Nat) : (c : Call) → c.Answer
  | .clock_gettime => if moves then (n : Int) else (0 : Int)
  | c => serving n c

/-- The thread may run. -/
def timedOps : List Op := schedulingOps ++ [.hal_start_threads]

def timed (moves : Bool) : State Machine :=
  played (rtapi (timing moves)) timedOps (after (hal_app_main (rtapi (timing moves))) fresh)

/-- Its function. -/
def timed_funct : Nat := 1048352

/-- Its thread. -/
def timed_thread : Nat := 1047920

/-- The schedule of the thread. -/
def timed_schedule : List Nat := [1047552]

variable (moves : Bool)

theorem timed_reachable : Reachable (rtapi (timing moves)) (timed moves) := by
  have hstart : Starts (timing moves) (after (hal_app_main (rtapi (timing moves))) fresh) := by
    cases moves <;> exact result_eq (by decide +kernel)
  have hplay : Playable (rtapi (timing moves)) (fun _ _ => True) timedOps
      (after (hal_app_main (rtapi (timing moves))) fresh) := by
    refine ⟨trivial, trivial, ?_, trivial, trivial, ?_, trivial, trivial, ?_, trivial, trivial, ?_,
      trivial, trivial, ?_, trivial⟩ <;> cases moves <;> decide +kernel
  exact ⟨_, _, hstart.boots, hplay.runs .start⟩

/-- A list of one structure, that the list starts with. -/
theorem timed_listed {k : Kind} {x y : Nat} (hx : ((timed moves).shm.arena.pool k).list_ptr = x)
    (h₀ : x ≠ 0) (hnext : ((timed moves).shm.arena.pool k).next_ptr x = 0) :
    (timed moves).shm.Listed k y ↔ y = x := by
  subst hx
  exact Segment.listed_one h₀ hnext

theorem timed_functs {f : Nat} : (timed moves).shm.Listed .funct f ↔ f = timed_funct :=
  timed_listed moves (by cases moves <;> decide +kernel) (by decide)
    (by cases moves <;> decide +kernel)

theorem timed_threads {t : Nat} : (timed moves).shm.Listed .thread t ↔ t = timed_thread :=
  timed_listed moves (by cases moves <;> decide +kernel) (by decide)
    (by cases moves <;> decide +kernel)

/-- The pin of the function, and the one of the thread. -/
theorem timed_pins {x : Nat} (hx : x ∈ [1048240, 1047600]) : (timed moves).shm.Listed .pin x := by
  refine ⟨[1048240, 1047600], ⟨?_, by decide, ?_, by decide, ?_⟩, hx⟩
  · cases moves <;> decide +kernel
  · cases moves <;> decide +kernel
  · show ((timed moves).shm.arena.pool .pin).next_ptr 1047600 = 0
    cases moves <;> decide +kernel

theorem timed_unmeasured : Unmeasured (timed moves) := by
  constructor
  · intro f hf
    obtain rfl := (timed_functs moves).mp hf
    refine .inr ⟨1048240, timed_pins moves (by decide), ?_⟩
    cases moves <;> decide +kernel
  · intro f hf _
    obtain rfl := (timed_functs moves).mp hf
    cases moves <;> decide +kernel
  · intro f hf
    obtain rfl := (timed_functs moves).mp hf
    cases moves <;> decide +kernel
  · intro f hf
    obtain rfl := (timed_functs moves).mp hf
    cases moves <;> decide +kernel
  · intro t ht
    obtain rfl := (timed_threads moves).mp ht
    refine .inr ⟨1047600, timed_pins moves (by decide), ?_⟩
    cases moves <;> decide +kernel
  · intro t ht
    obtain rfl := (timed_threads moves).mp ht
    cases moves <;> decide +kernel

/-- A function that does nothing. -/
def still : Code := fun _ _ _ data => data

/-- After one cycle. -/
def timed_once : State Machine :=
  after (thread_task_cycle (rtapi (timing moves)) still timed_thread) (timed moves)

theorem timed_cycled : Cycled (rtapi (timing moves)) (timed moves)
    [⟨timed_funct, if moves then 1 else 0⟩] [⟨timed_thread, if moves then 1 else 0⟩]
    (timed_once moves) := by
  have hcalls : cycle_calls (rtapi (timing moves)) (timed moves) timed_schedule =
      [⟨timed_funct, if moves then 1 else 0⟩] := by
    cases moves <;> decide +kernel
  have htime : cycle_time (rtapi (timing moves)) (timed moves) timed_schedule =
      if moves then 1 else 0 := by
    cases moves <;> decide +kernel
  have hes : (timed moves).shm.Schedule timed_thread timed_schedule := by
    refine ⟨⟨?_, ?_, ?_, ?_⟩, by decide⟩ <;> cases moves <;> decide +kernel
  have hrun : (timed moves).shm.threads_running > 0 := by cases moves <;> decide +kernel
  have hclock : ∀ c ∈ cycle_calls (rtapi (timing moves)) (timed moves) timed_schedule,
      0 ≤ c.time := by
    rw [hcalls]
    cases moves <;> decide
  have hcycle := Cycled.cycle still timed_thread timed_schedule .start
    ((timed_threads moves).mpr rfl) hrun hes (by decide) (fun _ _ _ _ _ _ => rfl) hclock
    (after_eq (s := timed moves) (by cases moves <;> decide +kernel))
  rwa [hcalls, htime] at hcycle

theorem statistics_iff_still : Faithful (timed_once false) [⟨timed_funct, 0⟩] [⟨timed_thread, 0⟩] :=
  (statistics_iff (timed_reachable false) (timed_unmeasured false) (timed_cycled false)).mpr
    fun _ hc => List.mem_singleton.mp hc ▸ rfl

/-- The call took 1, and `maxtime` is 0. -/
theorem maxtime_unfaithful : ∃ s₀ s, Reachable (rtapi (timing true)) s₀ ∧ Unmeasured s₀ ∧
    Cycled (rtapi (timing true)) s₀ [⟨timed_funct, 1⟩] [⟨timed_thread, 1⟩] s ∧
    ¬ Faithful s [⟨timed_funct, 1⟩] [⟨timed_thread, 1⟩] := by
  refine ⟨_, _, timed_reachable true, timed_unmeasured true, timed_cycled true, fun hf => ?_⟩
  have hmax := hf.funct_maxtime timed_funct 1 [] (durations_self ..)
  exact absurd hmax (by decide +kernel)

end RTS.Hal

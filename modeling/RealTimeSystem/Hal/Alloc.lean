import RealTimeSystem.Hal.Layout

/-!
# HAL — the allocator of the shared segment

Memory is handed out from the two ends of the segment: `shmalloc_up` raises `shmem_bot` for
`hal_malloc`, `shmalloc_dn` lowers `shmem_top` for the structures.  Nothing is given back to the
allocator.  `Brk` is the part of `hal_data_t` the two functions use, and a `Request` is a call of
one of them.

* `Brk.Span` — the two ends are in the segment and have not met.
* `serve_some` — what a granted request does; every other fact is derived from it.
* **`serveAll_safe`** — over any sequence of requests the blocks are in the segment, aligned and
  apart, and a refused request changes nothing.
-/

namespace RTS.Hal

/-- The allocator's fields of `hal_data_t`. -/
structure Brk where
  shmem_avail : Int := 0
  shmem_bot : Int := 0
  shmem_top : Int := 0
  deriving DecidableEq

/-- `x & ~(a - 1)` for a power of two `a`. -/
def maskOff (x a : Int) : Int := x - x % a

/-- The alignment ladder of `shmalloc_up`. -/
def roundUp (tmp_bot size : Int) : Int :=
  if size ≥ 16 then maskOff (tmp_bot + 15) 16
  else if size ≥ 8 then maskOff (tmp_bot + 7) 8
  else if size ≥ 4 then maskOff (tmp_bot + 3) 4
  else if size = 2 then maskOff (tmp_bot + 1) 2
  else tmp_bot

/-- The alignment ladder of `shmalloc_dn`. -/
def roundDn (tmp_top size : Int) : Int :=
  if size ≥ 16 then maskOff tmp_top 16
  else if size ≥ 8 then maskOff tmp_top 8
  else if size ≥ 4 then maskOff tmp_top 4
  else if size = 2 then maskOff tmp_top 2
  else tmp_top

/-- A block from the bottom; the null pointer is `none`. -/
def shmalloc_up (b : Brk) (size : Int) : Option Int × Brk :=
  let tmp_bot := roundUp b.shmem_bot size
  if b.shmem_top - tmp_bot < size then (none, b)
  else
    let bot := toInt32 (tmp_bot + size)
    (some tmp_bot, { b with shmem_bot := bot, shmem_avail := toInt32 (b.shmem_top - bot) })

/-- A block from the top. -/
def shmalloc_dn (b : Brk) (size : Int) : Option Int × Brk :=
  let tmp_top := roundDn (b.shmem_top - size) size
  if tmp_top < b.shmem_bot then (none, b)
  else
    let top := toInt32 tmp_top
    (some tmp_top, { b with shmem_top := top, shmem_avail := toInt32 (top - b.shmem_bot) })

/-- The allocator's part of `init_hal_data`. -/
def Brk.init (b : Brk) : Brk :=
  { b with shmem_bot := HAL_DATA_SIZE, shmem_top := HAL_SIZE }

/-- The two ends are in the segment, behind `hal_data_t`, and have not met. -/
structure Brk.Span (b : Brk) : Prop where
  lo : HAL_DATA_SIZE ≤ b.shmem_bot
  mid : b.shmem_bot ≤ b.shmem_top
  hi : b.shmem_top ≤ HAL_SIZE

theorem Brk.init_span (b : Brk) : b.init.Span where
  lo := Int.le_refl _
  mid := by simp [Brk.init, HAL_DATA_SIZE, HAL_SIZE]
  hi := Int.le_refl _

theorem toInt32_of_range {x : Int} (h₀ : 0 ≤ x) (h₁ : x ≤ HAL_SIZE) : toInt32 x = x := by
  have h₂ : x ≤ 1048576 := h₁
  unfold toInt32
  exact Int.bmod_eq_of_le_mul_two (by omega) (by omega)

/-! ### Requests -/

/-- A call of one of the two functions. -/
inductive Request where
  | up (size : Int)
  | dn (size : Int)
  deriving DecidableEq

def Request.size : Request → Int
  | .up n => n
  | .dn n => n

def serve (b : Brk) : Request → Option Int × Brk
  | .up n => shmalloc_up b n
  | .dn n => shmalloc_dn b n

/-- A block that was handed out. -/
structure Block where
  off : Int
  size : Int
  deriving DecidableEq

/-- The alignment of a block's size class. -/
def Block.Aligned (k : Block) : Prop :=
  (16 ≤ k.size → 16 ∣ k.off) ∧ (8 ≤ k.size ∧ k.size ≤ 15 → 8 ∣ k.off) ∧
    (4 ≤ k.size ∧ k.size ≤ 7 → 4 ∣ k.off) ∧ (k.size = 2 → 2 ∣ k.off)

/-- The block lies behind `hal_data_t` and inside the segment. -/
def Block.Inside (k : Block) : Prop := HAL_DATA_SIZE ≤ k.off ∧ k.off + k.size ≤ HAL_SIZE

/-- One of the two blocks ends before the other starts. -/
def Block.Apart (k k' : Block) : Prop := k.off + k.size ≤ k'.off ∨ k'.off + k'.size ≤ k.off

theorem roundUp_ge (x size : Int) : x ≤ roundUp x size := by
  unfold roundUp maskOff; split_ifs <;> omega

theorem roundDn_le (x size : Int) : roundDn x size ≤ x := by
  unfold roundDn maskOff; split_ifs <;> omega

theorem roundDn_mono {x y : Int} (h : x ≤ y) (size : Int) : roundDn x size ≤ roundDn y size := by
  unfold roundDn maskOff; split_ifs <;> omega

theorem roundUp_aligned (x size : Int) : Block.Aligned ⟨roundUp x size, size⟩ := by
  unfold Block.Aligned roundUp maskOff
  refine ⟨fun _ => ?_, fun _ => ?_, fun _ => ?_, fun _ => ?_⟩ <;> dsimp only at * <;>
    split_ifs <;> omega

theorem roundDn_aligned (x size : Int) : Block.Aligned ⟨roundDn x size, size⟩ := by
  unfold Block.Aligned roundDn maskOff
  refine ⟨fun _ => ?_, fun _ => ?_, fun _ => ?_, fun _ => ?_⟩ <;> dsimp only at * <;>
    split_ifs <;> omega

theorem shmalloc_up_some {b b' : Brk} {size off : Int} (hb : b.Span) (h₀ : 0 ≤ size)
    (h : shmalloc_up b size = (some off, b')) :
    b.shmem_bot ≤ off ∧ off + size ≤ b.shmem_top ∧ Block.Aligned ⟨off, size⟩ ∧
      b'.shmem_bot = off + size ∧ b'.shmem_top = b.shmem_top := by
  obtain ⟨lo, mid, hi⟩ := hb
  have hr := roundUp_ge b.shmem_bot size
  simp only [shmalloc_up] at h
  split at h
  · simp at h
  · obtain ⟨rfl, rfl⟩ := by simpa using h
    -- the fit was tested after rounding, so nothing wraps
    have h₁ : (0 : Int) ≤ HAL_DATA_SIZE := by decide
    exact ⟨hr, by omega, roundUp_aligned _ _, toInt32_of_range (by omega) (by omega), rfl⟩

@[simp] theorem shmalloc_up_top (b : Brk) (size : Int) :
    (shmalloc_up b size).2.shmem_top = b.shmem_top := by
  simp only [shmalloc_up]
  split_ifs <;> rfl

theorem shmalloc_dn_some {b b' : Brk} {size off : Int} (hb : b.Span) (h₀ : 0 ≤ size)
    (h : shmalloc_dn b size = (some off, b')) :
    b.shmem_bot ≤ off ∧ off + size ≤ b.shmem_top ∧ Block.Aligned ⟨off, size⟩ ∧
      b'.shmem_bot = b.shmem_bot ∧ b'.shmem_top = off := by
  obtain ⟨lo, mid, hi⟩ := hb
  have hr := roundDn_le (b.shmem_top - size) size
  simp only [shmalloc_dn] at h
  split at h
  · simp at h
  · obtain ⟨rfl, rfl⟩ := by simpa using h
    have h₁ : (0 : Int) ≤ HAL_DATA_SIZE := by decide
    exact ⟨by omega, by omega, roundDn_aligned _ _, rfl, toInt32_of_range (by omega) (by omega)⟩

/-- A structure that fits fits as well when the ends are further apart. -/
theorem shmalloc_dn_room {b b' : Brk} (hbot : b.shmem_bot ≤ b'.shmem_bot)
    (htop : b'.shmem_top ≤ b.shmem_top) {size : Int} (h : (shmalloc_dn b' size).1 ≠ none) :
    (shmalloc_dn b size).1 ≠ none := by
  have hr := roundDn_mono (show b'.shmem_top - size ≤ b.shmem_top - size by omega) size
  have hb' : ¬ roundDn (b'.shmem_top - size) size < b'.shmem_bot := fun hlt => by
    simp [shmalloc_dn, hlt] at h
  have hb : ¬ roundDn (b.shmem_top - size) size < b.shmem_bot := by omega
  simp [shmalloc_dn, hb]

/-- **A granted request.**  The block lies between the two ends, and one of the ends moves over
it. -/
theorem serve_some {b b' : Brk} {r : Request} {off : Int} (hb : b.Span) (h₀ : 0 ≤ r.size)
    (h : serve b r = (some off, b')) :
    b.shmem_bot ≤ off ∧ off + r.size ≤ b.shmem_top ∧ Block.Aligned ⟨off, r.size⟩ ∧
      (b'.shmem_bot = off + r.size ∧ b'.shmem_top = b.shmem_top ∨
        b'.shmem_bot = b.shmem_bot ∧ b'.shmem_top = off) := by
  cases r with
  | up n =>
      obtain ⟨h₁, h₂, h₃, h₄⟩ := shmalloc_up_some hb h₀ h
      exact ⟨h₁, h₂, h₃, .inl h₄⟩
  | dn n =>
      obtain ⟨h₁, h₂, h₃, h₄⟩ := shmalloc_dn_some hb h₀ h
      exact ⟨h₁, h₂, h₃, .inr h₄⟩

theorem serve_none {b b' : Brk} {r : Request} (h : serve b r = (none, b')) : b' = b := by
  cases r <;> simp only [serve, shmalloc_up, shmalloc_dn] at h <;> split at h <;> simp_all

theorem serve_span {b : Brk} {r : Request} (hb : b.Span) (h₀ : 0 ≤ r.size) :
    (serve b r).2.Span := by
  rcases hs : serve b r with ⟨_ | off, b'⟩
  · rw [serve_none hs]; exact hb
  · obtain ⟨h₁, h₂, -, h⟩ := serve_some hb h₀ hs
    obtain ⟨lo, mid, hi⟩ := hb
    rcases h with ⟨e₁, e₂⟩ | ⟨e₁, e₂⟩
    · exact ⟨by simp only [e₁]; omega, by simp only [e₁, e₂]; omega, by simp only [e₂]; omega⟩
    · exact ⟨by simp only [e₁]; omega, by simp only [e₁, e₂]; omega, by simp only [e₂]; omega⟩

/-! ### Runs -/

/-- The blocks handed out for a sequence of requests, in order, and the final state. -/
def serveAll : Brk → List Request → List Block × Brk
  | b, [] => ([], b)
  | b, r :: rs =>
      match serve b r with
      | (none, b') => serveAll b' rs
      | (some off, b') => (⟨off, r.size⟩ :: (serveAll b' rs).1, (serveAll b' rs).2)

/-- Blocks handed out from `b` lie between its two ends. -/
theorem serveAll_between {b : Brk} {rs : List Request} (hb : b.Span)
    (h₀ : ∀ r ∈ rs, 0 ≤ r.size) :
    (serveAll b rs).2.Span ∧ (serveAll b rs).1.Pairwise Block.Apart ∧
      ∀ k ∈ (serveAll b rs).1,
        b.shmem_bot ≤ k.off ∧ k.off + k.size ≤ b.shmem_top ∧ 0 ≤ k.size ∧ k.Aligned := by
  induction rs generalizing b with
  | nil => exact ⟨hb, .nil, by simp [serveAll]⟩
  | cons r rs ih =>
      have hr : 0 ≤ r.size := h₀ r (by simp)
      have hrs : ∀ r ∈ rs, 0 ≤ r.size := fun r hr => h₀ r (by simp [hr])
      have hb' : (serve b r).2.Span := serve_span hb hr
      rcases hs : serve b r with ⟨_ | off, b'⟩
      · simp only [serveAll, hs]
        rw [serve_none hs]
        exact ih hb hrs
      · rw [hs] at hb'
        obtain ⟨i₁, i₂, i₃⟩ := ih (b := b') hb' hrs
        obtain ⟨h₁, h₂, h₃, h₄⟩ := serve_some hb hr hs
        simp only [serveAll, hs]
        refine ⟨i₁, .cons (fun k hk => ?_) i₂, fun k hk => ?_⟩
        · -- later blocks lie between the new ends, and the new block is outside of them
          obtain ⟨k₁, k₂, k₃, -⟩ := i₃ k hk
          unfold Block.Apart
          rcases h₄ with ⟨e₁, e₂⟩ | ⟨e₁, e₂⟩ <;> dsimp only <;> omega
        · rcases List.mem_cons.mp hk with rfl | hk
          · exact ⟨h₁, h₂, hr, h₃⟩
          · obtain ⟨k₁, k₂, k₃, k₄⟩ := i₃ k hk
            have := hb.mid
            rcases h₄ with ⟨e₁, e₂⟩ | ⟨e₁, e₂⟩ <;> exact ⟨by omega, by omega, k₃, k₄⟩

/-- **Allocator safety.**  After any sequence of requests from the initial state the blocks are
inside the segment, aligned and pairwise apart, the two ends have not crossed, and a request that
is refused there changes nothing. -/
theorem serveAll_safe (b : Brk) (rs : List Request) (h₀ : ∀ r ∈ rs, 0 ≤ r.size) :
    (∀ k ∈ (serveAll b.init rs).1, k.Inside ∧ k.Aligned) ∧
      (serveAll b.init rs).1.Pairwise Block.Apart ∧
      (serveAll b.init rs).2.shmem_bot ≤ (serveAll b.init rs).2.shmem_top ∧
      ∀ r, (serve (serveAll b.init rs).2 r).1 = none →
        (serve (serveAll b.init rs).2 r).2 = (serveAll b.init rs).2 := by
  obtain ⟨h₁, h₂, h₃⟩ := serveAll_between b.init_span h₀
  refine ⟨fun k hk => ?_, h₂, h₁.mid, fun r hr => ?_⟩
  · obtain ⟨k₁, k₂, -, k₄⟩ := h₃ k hk
    exact ⟨⟨k₁, k₂⟩, k₄⟩
  · exact serve_none (b := (serveAll b.init rs).2) (r := r) (Prod.ext hr rfl)

theorem serveAll_safe_sample :
    (∀ r ∈ [Request.up 10, .dn 104, .up 2000000], 0 ≤ r.size) ∧
      (serveAll (Brk.init {}) [.up 10, .dn 104, .up 2000000]).1 = [⟨272, 10⟩, ⟨1048464, 104⟩] ∧
      (serveAll (Brk.init {}) [.up 10, .dn 104, .up 2000000]).1.Pairwise Block.Apart :=
  ⟨by decide, by decide, (serveAll_safe {} [.up 10, .dn 104, .up 2000000] (by decide)).2.1⟩

end RTS.Hal

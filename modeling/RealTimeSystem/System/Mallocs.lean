import Mathlib.Algebra.Order.Group.Int
import RealTimeSystem.Support.Steps
import RealTimeSystem.System.Boot
import RealTimeSystem.Uspace.Priority

/-!
# System — requests of any size

`hal_malloc` takes a `long`, and `shmalloc_up` asks only whether the size is greater than the space
left.  A negative size passes: it is granted and lowers `shmem_bot`, the first free byte, by what
its last 32 bits amount to.

* `Ledger` — the allocator with the blocks it handed out.
* `Ledger.Safe` — what is asked of one call.
* **`hal_malloc_safe_iff`** — a call is safe if and only if its size is not negative, or its last 32
  bits, read without a sign, are no more than the space left.
-/

namespace RTS.Hal

open RTS.Support RTS.Uspace

variable {σ : Type}

/-- A value of a `long`. -/
def FitsLong (x : Int) : Prop := -2 ^ 63 ≤ x ∧ x < 2 ^ 63

instance (x : Int) : Decidable (FitsLong x) := inferInstanceAs (Decidable (_ ∧ _))

/-! ### The allocator and its blocks -/

/-- The blocks handed out, the last one first. -/
structure Ledger where
  brk : Brk
  blocks : List Block := []
  deriving DecidableEq

namespace Ledger

/-- A request, and its block entered. -/
def book (l : Ledger) (r : Request) : Ledger where
  brk := (serve l.brk r).2
  blocks := ((serve l.brk r).1.map fun off => ⟨off, r.size⟩).toList ++ l.blocks

/-- The allocator as `init_hal_data` leaves it. -/
def fresh : Ledger := ⟨Brk.init {}, []⟩

end Ledger

/-- There is a byte in both blocks. -/
def Block.Meets (k k' : Block) : Prop :=
  ∃ a, (k.off ≤ a ∧ a < k.off + k.size) ∧ k'.off ≤ a ∧ a < k'.off + k'.size

/-- What the allocator is asked for: any `long` by `hal_malloc`, and the structures of HAL. -/
def Request.Typed : Request → Prop
  | .up size => FitsLong size
  | .dn size => ∃ k : Kind, size = k.size

/-- No signed expression that `shmalloc_up` evaluates overflows. -/
structure Brk.Exact (b : Brk) (size : Int) : Prop where
  round : ∀ n ∈ [15, 7, 3, 1], FitsLong (b.shmem_bot + n)
  room : FitsLong (b.shmem_top - roundUp b.shmem_bot size)
  bot : (shmalloc_up b size).1 ≠ none → FitsLong (roundUp b.shmem_bot size + size)
  avail : (shmalloc_up b size).1 ≠ none → FitsInt (b.shmem_top - (shmalloc_up b size).2.shmem_bot)

/-- A call that returned `r` and left the allocator `b` was safe. -/
structure Ledger.Safe (l : Ledger) (size : Int) (r : Option Int) (b : Brk) : Prop where
  exact : l.brk.Exact size
  raised : l.brk.shmem_bot ≤ b.shmem_bot
  span : b.Span
  /-- the following allocation -/
  apart : ∀ (next : Request) (off : Int), next.Typed → (serve b next).1 = some off →
    ∀ k ∈ (r.map fun off => (⟨off, size⟩ : Block)).toList ++ l.blocks,
      ¬ Block.Meets ⟨off, next.size⟩ k

/-- The size is not negative, or what it moves `shmem_bot` by fits. -/
def Brk.Admits (b : Brk) (size : Int) : Prop :=
  0 ≤ size ∨ size % 2 ^ 32 ≤ b.shmem_top - b.shmem_bot

instance (b : Brk) (size : Int) : Decidable (b.Admits size) :=
  inferInstanceAs (Decidable (_ ∨ _))

def Ledger.Admits (l : Ledger) : Request → Prop
  | .up size => FitsLong size ∧ l.brk.Admits size
  | .dn size => ∃ k : Kind, size = k.size

/-! ### A negative size -/

section
variable {b : Brk} {size : Int}

theorem roundUp_neg (x : Int) (h : size < 0) : roundUp x size = x := by
  unfold roundUp
  split_ifs <;> omega

/-- It is granted, and moves the bottom. -/
theorem shmalloc_up_neg (hb : b.Span) (h : size < 0) :
    (shmalloc_up b size).1 = some b.shmem_bot ∧
      (shmalloc_up b size).2.shmem_bot = toInt32 (b.shmem_bot + size) := by
  have hroom : ¬ b.shmem_top - b.shmem_bot < size := by
    have := hb.mid
    omega
  simp only [shmalloc_up, roundUp_neg b.shmem_bot h, if_neg hroom, and_self]

/-- The bottom stays between the two ends exactly if the last 32 bits of the size fit. -/
theorem toInt32_between_iff (hb : b.Span) (size : Int) :
    b.shmem_bot ≤ toInt32 (b.shmem_bot + size) ∧ toInt32 (b.shmem_bot + size) ≤ b.shmem_top ↔
      size % 2 ^ 32 ≤ b.shmem_top - b.shmem_bot := by
  obtain ⟨lo, mid, hi⟩ := hb
  unfold HAL_DATA_SIZE at lo
  unfold HAL_SIZE at hi
  unfold toInt32
  rw [Int.bmod_def]
  split_ifs <;> omega

end

/-! ### The blocks of a ledger -/

/-- The block has no bytes, or they are outside of what is free. -/
def Brk.Beyond (b : Brk) (k : Block) : Prop :=
  k.size ≤ 0 ∨ k.off + k.size ≤ b.shmem_bot ∨ b.shmem_top ≤ k.off

/-- What holds of the ledger of admitted requests. -/
structure Ledger.Sound (l : Ledger) : Prop where
  span : l.brk.Span
  beyond : ∀ k ∈ l.blocks, l.brk.Beyond k
  apart : l.blocks.Pairwise fun k k' => ¬ k.Meets k'

/-- The two ends come closer. -/
structure Brk.Narrows (b b' : Brk) : Prop where
  span : b'.Span
  bot : b.shmem_bot ≤ b'.shmem_bot
  top : b'.shmem_top ≤ b.shmem_top

section
variable {b b' : Brk} {size : Int} {r : Request} {k : Block} {l : Ledger} {off : Int}

theorem Brk.Beyond.narrows (h : b.Beyond k) (hn : b.Narrows b') : b'.Beyond k := by
  have hbot := hn.bot
  have htop := hn.top
  unfold Beyond at *
  omega

/-- A new block does not meet what is beyond. -/
theorem Brk.Beyond.not_meets (h : b.Beyond k) (hb : b.Span) (hs : (serve b r).1 = some off) :
    ¬ Block.Meets ⟨off, r.size⟩ k := by
  rintro ⟨a, ⟨h₁, h₂⟩, h₃, h₄⟩
  dsimp only at h₁ h₂
  have hsize : 0 ≤ r.size := by omega
  obtain ⟨g₁, g₂, -⟩ := serve_some hb hsize (Prod.ext hs rfl)
  unfold Beyond at h
  omega

theorem serve_narrows (hb : b.Span) (h : 0 ≤ r.size) : b.Narrows (serve b r).2 := by
  have hspan := serve_span hb h
  rcases hs : serve b r with ⟨_ | off, b'⟩
  · rw [serve_none hs]
    exact ⟨hb, le_rfl, le_rfl⟩
  · rw [hs] at hspan
    obtain ⟨h₁, h₂, -, h₃⟩ := serve_some hb h hs
    refine ⟨hspan, ?_, ?_⟩ <;> dsimp only <;> omega

/-- A negative size keeps the two ends in order exactly if it is admitted. -/
theorem shmalloc_up_neg_narrows (hb : b.Span) (h : size < 0) :
    b.Narrows (shmalloc_up b size).2 ↔ b.Admits size := by
  have htop : (shmalloc_up b size).2.shmem_top = b.shmem_top := shmalloc_up_top b size
  have hbot := (shmalloc_up_neg hb h).2
  have hiff := toInt32_between_iff hb size
  constructor
  · intro hn
    have hmid := hn.span.mid
    rw [htop, hbot] at hmid
    exact .inr (hiff.mp ⟨hbot ▸ hn.bot, hmid⟩)
  · intro ha
    obtain ⟨h₁, h₂⟩ := hiff.mpr (ha.resolve_left (by omega))
    rw [← hbot] at h₁ h₂
    exact ⟨⟨hb.lo.trans h₁, htop ▸ h₂, htop ▸ hb.hi⟩, h₁, htop.le⟩

theorem Ledger.Admits.narrows (h : l.Admits r) (hb : l.brk.Span) :
    l.brk.Narrows (serve l.brk r).2 := by
  cases r with
  | up size =>
      rcases lt_or_ge size 0 with hneg | hpos
      · exact (shmalloc_up_neg_narrows hb hneg).mpr h.2
      · exact serve_narrows hb hpos
  | dn size =>
      obtain ⟨k, rfl⟩ := h
      exact serve_narrows hb (Int.natCast_nonneg _)

/-- The new block is beyond. -/
theorem serve_beyond (hb : b.Span) (hs : (serve b r).1 = some off) :
    (serve b r).2.Beyond ⟨off, r.size⟩ := by
  rcases lt_or_ge r.size 0 with hneg | hpos
  · exact .inl hneg.le
  · obtain ⟨-, -, -, h⟩ := serve_some hb hpos (Prod.ext hs rfl)
    rcases h with ⟨h, -⟩ | ⟨-, h⟩
    · exact .inr (.inl h.ge)
    · exact .inr (.inr h.le)

/-! ### Runs of admitted requests -/

theorem Ledger.mem_book {k : Block} : k ∈ (l.book r).blocks ↔
    (∃ off, (serve l.brk r).1 = some off ∧ k = ⟨off, r.size⟩) ∨ k ∈ l.blocks := by
  unfold Ledger.book
  rcases (serve l.brk r).1 with _ | off
  · simp
  · simp

theorem Ledger.Sound.book (h : l.Sound) (hr : l.Admits r) : (l.book r).Sound where
  span := (hr.narrows h.span).span
  beyond k hk := by
    rcases Ledger.mem_book.mp hk with ⟨off, hs, rfl⟩ | hk
    · exact serve_beyond h.span hs
    · exact (h.beyond k hk).narrows (hr.narrows h.span)
  apart := by
    rcases hs : (serve l.brk r).1 with _ | off
    · simpa [Ledger.book, hs] using h.apart
    · have hnew : ∀ k ∈ l.blocks, ¬ Block.Meets ⟨off, r.size⟩ k := fun k hk =>
        (h.beyond k hk).not_meets h.span hs
      simpa [Ledger.book, hs] using And.intro hnew h.apart

theorem Ledger.fresh_sound : Ledger.fresh.Sound where
  span := Brk.init_span {}
  beyond _ hk := absurd hk List.not_mem_nil
  apart := .nil

/-- The ledgers of the requests that meet `C` where they are made. -/
abbrev Ledger.Reach (C : Ledger → Request → Prop) : Ledger → Prop :=
  Reached (fun r l => some (l.book r)) C Ledger.fresh

/-- **Runs of admitted requests** keep the ledger sound. -/
theorem Ledger.Reach.sound (h : Ledger.Reach Ledger.Admits l) : l.Sound :=
  h.invariant Ledger.fresh_sound fun _ _ _ hs hr hstep => Option.some.inj hstep ▸ hs.book hr

/-! ### One call -/

theorem roundUp_lt (x size : Int) : roundUp x size < x + 16 := by
  unfold roundUp maskOff
  split_ifs <;> omega

theorem shmalloc_up_granted {size : Int} (h : (shmalloc_up b size).1 ≠ none) :
    size ≤ b.shmem_top - roundUp b.shmem_bot size := by
  by_contra hlt
  exact h (by simp only [shmalloc_up, if_pos (not_le.mp hlt)])

/-- Nothing overflows where the two ends are kept in order. -/
theorem Brk.Narrows.exact {size : Int} (hb : b.Span) (hz : FitsLong size)
    (hn : b.Narrows (shmalloc_up b size).2) : b.Exact size := by
  obtain ⟨lo, mid, hi⟩ := hb
  have hr₀ := roundUp_ge b.shmem_bot size
  have hr₁ := roundUp_lt b.shmem_bot size
  have hbot := hn.bot
  have hmid := hn.span.mid
  rw [shmalloc_up_top] at hmid
  unfold HAL_DATA_SIZE at lo
  unfold HAL_SIZE at hi
  unfold FitsLong at hz
  constructor
  · intro n hn
    have h₁₅ : ∀ n ∈ [15, 7, 3, 1], 0 ≤ n ∧ n ≤ (15 : Int) := by decide
    have hn' := h₁₅ n hn
    unfold FitsLong
    omega
  · unfold FitsLong
    omega
  · intro hgrant
    have hle := shmalloc_up_granted hgrant
    unfold FitsLong
    omega
  · intro _
    rw [Policy.fitsInt_iff]
    omega

theorem Ledger.Sound.safe (h : l.Sound) {size : Int} (hz : FitsLong size)
    (ha : l.brk.Admits size) :
    l.Safe size (shmalloc_up l.brk size).1 (shmalloc_up l.brk size).2 := by
  have hr : l.Admits (.up size) := ⟨hz, ha⟩
  have hn := hr.narrows h.span
  have hs := h.book hr
  refine ⟨hn.exact h.span hz, hn.bot, hn.span, fun next off _ hoff k hk => ?_⟩
  exact (hs.beyond k hk).not_meets hs.span hoff

theorem Ledger.Safe.admits (h : l.Sound) {size : Int}
    (hs : l.Safe size (shmalloc_up l.brk size).1 (shmalloc_up l.brk size).2) :
    l.brk.Admits size := by
  rcases lt_or_ge size 0 with hneg | hpos
  · refine (shmalloc_up_neg_narrows h.span hneg).mp ⟨hs.span, hs.raised, ?_⟩
    rw [shmalloc_up_top]
  · exact .inl hpos

/-- **When a call of `hal_malloc` is safe.** -/
theorem hal_malloc_safe_iff {s : State σ} {l : Ledger} {size : Int}
    (hl : Ledger.Reach Ledger.Admits l) (hs : s.hal_data ≠ 0) (hm : s.shm.mutex = false)
    (hb : s.shm.arena.brk = l.brk) (hz : FitsLong size) :
    (∃ r s', hal_malloc size s = .ok r s' ∧ l.Safe size r s'.shm.arena.brk) ↔
      0 ≤ size ∨ size % 2 ^ 32 ≤ l.brk.shmem_top - l.brk.shmem_bot := by
  obtain ⟨r, s', hrun, hr, hs'⟩ := (hal_malloc_returns hs hm size).exists_ok
  have hbrk : s'.shm.arena.brk = (shmalloc_up l.brk size).2 := by
    rw [hs', ← hb]
    rfl
  rw [hb] at hr
  constructor
  · rintro ⟨r', s'', hrun', hsafe⟩
    rw [hrun] at hrun'
    cases hrun'
    rw [hr, hbrk] at hsafe
    exact hsafe.admits hl.sound
  · intro ha
    refine ⟨r, s', hrun, ?_⟩
    rw [hr, hbrk]
    exact hl.sound.safe hz ha

/-- `hal_app_main` and `hal_malloc(16)`. -/
def mallocked : State Machine := after (hal_malloc 16) started

theorem hal_malloc_safe_iff_sample :
    (∃ r s', hal_malloc 2000000 mallocked = .ok r s' ∧
        (Ledger.fresh.book (.up 16)).Safe 2000000 r s'.shm.arena.brk) ∧
      ∃ r s', hal_malloc (-2 ^ 32) mallocked = .ok r s' ∧
        (Ledger.fresh.book (.up 16)).Safe (-2 ^ 32) r s'.shm.arena.brk := by
  have hl : Ledger.Reach Ledger.Admits (Ledger.fresh.book (.up 16)) :=
    .next (a := .up 16) .start ⟨by decide, .inl (by decide)⟩ rfl
  have hs : mallocked.hal_data ≠ 0 := by decide +kernel
  have hb : mallocked.shm.arena.brk = (Ledger.fresh.book (.up 16)).brk := by decide +kernel
  exact ⟨(hal_malloc_safe_iff hl hs rfl hb (by decide)).mpr (by decide),
    (hal_malloc_safe_iff hl hs rfl hb (by decide)).mpr (by decide)⟩

/-- The request for -16 bytes takes the block before it back, and the next one gets it again. -/
theorem negative_overlaps :
    (¬ ∀ (s : State Machine) (l : Ledger) (size : Int), Ledger.Reach (fun _ r => r.Typed) l →
      s.hal_data ≠ 0 → s.shm.mutex = false → s.shm.arena.brk = l.brk → FitsLong size →
        ∃ r s', hal_malloc size s = .ok r s' ∧ l.Safe size r s'.shm.arena.brk) ∧
      (((Ledger.fresh.book (.up 16)).book (.up (-16))).book (.up 16)).blocks =
        [⟨272, 16⟩, ⟨288, -16⟩, ⟨272, 16⟩] := by
  refine ⟨fun h => ?_, by decide⟩
  have hl : Ledger.Reach (fun _ r => r.Typed) (Ledger.fresh.book (.up 16)) :=
    .next (a := .up 16) .start (show FitsLong 16 by decide) rfl
  have hs : mallocked.hal_data ≠ 0 := by decide +kernel
  have hb : mallocked.shm.arena.brk = (Ledger.fresh.book (.up 16)).brk := by decide +kernel
  obtain ⟨r, s', hrun, hsafe⟩ := h mallocked _ (-16) hl hs rfl hb (by decide)
  obtain ⟨-, hs'⟩ := (hal_malloc_returns hs rfl (-16)).of_ok hrun
  have hlow : s'.shm.arena.brk.shmem_bot = 272 := by
    rw [hs']
    decide +kernel
  have hraised := hsafe.raised
  rw [hlow] at hraised
  exact absurd hraised (by decide)

end

end RTS.Hal

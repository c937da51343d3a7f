import RealTimeSystem.Hal.Runs

/-!
# HAL — the memory that a registration leaves

Whether a structure can be had is a matter of the allocator and of one free list.  `Beside k a a'`
says that two arenas agree on these, because only the list in use of the kind `k` may differ.  A
registration that succeeds allocates a structure and links it in; one whose name is taken gives its
structure back, so the next one finds it.
-/

namespace RTS.Hal

open RTS.Support

variable {σ : Type} {s s' : State σ} {L : Lists} {k k' : Kind}

/-! ### Arenas with the same room -/

/-- `a'` is `a` with the list in use of one kind changed. -/
structure Arena.Beside (k : Kind) (a a' : Arena) : Prop where
  brk : a'.brk = a.brk
  pool : ∀ k', k' ≠ k → a'.pool k' = a.pool k'
  free : (a'.pool k).free_ptr = (a.pool k).free_ptr

namespace Arena.Beside

variable {a a' : Arena}

theorem full (h : Beside k a a') (k' : Kind) : a'.Full k' ↔ a.Full k' := by
  have hfree : (a'.pool k').free_ptr = (a.pool k').free_ptr := by
    by_cases hk : k' = k
    · subst hk; exact h.free
    · rw [h.pool k' hk]
  rw [Full, Full, hfree, h.brk]

theorem setPool (h : Beside k a a') (hk : k' ≠ k) (p : Pool) :
    Beside k (a.setPool k' p) (a'.setPool k' p) where
  brk := h.brk
  pool k'' hk'' := by
    by_cases e : k'' = k'
    · subst e; simp [Arena.setPool]
    · simpa [Arena.setPool, e] using h.pool k'' hk''
  free := by simpa [Arena.setPool, Ne.symm hk] using h.free

/-- Structures of another kind are had from both alike. -/
theorem alloc (h : Beside k a a') (hk : k' ≠ k) :
    (a'.alloc k').1 = (a.alloc k').1 ∧ Beside k (a.alloc k').2 (a'.alloc k').2 := by
  unfold Arena.alloc
  rw [h.pool k' hk, h.brk]
  by_cases h₀ : (a.pool k').free_ptr ≠ 0
  · rw [if_pos h₀, if_pos h₀]
    exact ⟨rfl, h.setPool hk _⟩
  · rw [if_neg h₀, if_neg h₀]
    rcases shmalloc_dn a.brk k'.size with ⟨_ | off, brk⟩
    · exact ⟨rfl, h⟩
    · have hc : Beside k (a.carve k' off.toNat brk) (a'.carve k' off.toNat brk) :=
        ⟨rfl, h.pool, h.free⟩
      exact ⟨rfl, hc.setPool hk _⟩

end Arena.Beside

/-! ### Room over a run -/

section
variable {a a' : Arena} {L' : Lists}

theorem Shape.act_le (h : Shape a L) (hk : k ≠ .entry) : (L.act k).length ≤ (a.carved k).length := by
  have := (h.whole k hk).length_eq
  simp only [List.length_append] at this
  omega

/-- A structure that is on no list in use is had again. -/
theorem Shape.not_full (h : Shape a L) (hk : k ≠ .entry) (hh : L.hand k = [])
    (hlt : (L.act k).length < (a.carved k).length) : ¬ a.Full k := fun hf => by
  have := ((h.full_iff hk hh).mp hf).1
  omega

/-- An idle structure is one more than are in use. -/
theorem Shape.lt_of_idle (h : Shape a L) (hk : k ≠ .entry) (hf : (a.pool k).free_ptr ≠ 0) :
    (L.act k).length < (a.carved k).length := by
  have hlen := (h.whole k hk).length_eq
  have hfree : L.free k ≠ [] := fun e => hf (by rw [(h.rep k).free_ptr_eq, e]; rfl)
  have hpos := List.length_pos_iff.mpr hfree
  simp only [List.length_append] at hlen
  omega

/-- What cannot be had cannot be had later, unless a structure was freed. -/
theorem Shape.full_of_grown (h : Shape a L) (h' : Shape a' L') (hk : k ≠ .entry) (hh : L.hand k = [])
    (hh' : L'.hand k = []) (hg : Grown a a') (hlen : (L.act k).length ≤ (L'.act k).length)
    (hf : a.Full k) : a'.Full k := by
  obtain ⟨hall, hnone⟩ := (h.full_iff hk hh).mp hf
  have hsame : ¬ (a.carved k).length < (a'.carved k).length := fun hlt => hg.fresh k hlt hnone
  have hle := hg.carved k
  have hact := h'.act_le hk
  refine (h'.full_iff hk hh').mpr ⟨by omega, ?_⟩
  exact Decidable.by_contra fun hr => hg.room k hr hnone

/-- Having a structure of another kind leaves no more room. -/
theorem Arena.Full.alloc (hf : a.Full k) (h : Shape a L) (hk : k' ≠ k) : (a.alloc k').2.Full k := by
  have hpool : ((a.alloc k').2.pool k) = a.pool k := by
    unfold Arena.alloc
    split_ifs
    · simp [Arena.setPool, Ne.symm hk]
    · rcases shmalloc_dn a.brk k'.size with ⟨_ | off, brk⟩
      · rfl
      · simp [Arena.setPool, Arena.carve, Ne.symm hk]
  refine ⟨by rw [hpool]; exact hf.1, ?_⟩
  exact Decidable.by_contra fun hr => (Grown.alloc h k').room k hr hf.2

end

/-! ### Linking in -/

theorem Pool.insertAt_free (p : Pool) (prev : Link) (x : Nat) :
    (p.insertAt prev x).free_ptr = p.free_ptr := by
  cases prev <;> rfl

theorem insertAt_beside (m : Segment) (prev : Link) (x : Nat) :
    Arena.Beside k m.arena (m.arena.setPool k ((m.arena.pool k).insertAt prev x)) where
  brk := rfl
  pool k' hk := by simp [Arena.setPool, hk]
  free := by simp [Arena.setPool, Pool.insertAt_free]

theorem insert_sorted_beside {m m' : Segment} {name : Nat → CStr} {x : Nat} {inserted : Bool}
    (h : m.insert_sorted k name x = some (inserted, m')) :
    (inserted = true ∧ Arena.Beside k m.arena m'.arena) ∨ (inserted = false ∧ m' = m) := by
  unfold Segment.insert_sorted at h
  obtain ⟨prev, -, h⟩ := Option.map_eq_some_iff.mp h
  simp only at h
  split_ifs at h
  · cases h
    exact .inr ⟨rfl, rfl⟩
  · cases h
    exact .inl ⟨rfl, insertAt_beside m prev x⟩

theorem insert_new_beside {names : Segment → Nat → CStr} {free : Segment → Nat → Option Segment}
    {new : Nat} (s : State σ) :
    Wp (insert_new k names free new) s (fun inserted s' =>
      (inserted = true ∧ Arena.Beside k s.shm.arena s'.shm.arena) ∨
        (inserted = false ∧ ∃ m, free s.shm new = some m ∧ s'.shm.arena = m.arena))
      fun _ _ => True := by
  unfold insert_new walkTo
  simp only [wp_bind, wp_get]
  rcases hi : s.shm.insert_sorted k (names s.shm) new with _ | ⟨inserted, m⟩
  · exact trivial
  simp only [wp_bind, wp_modify, wp_pure]
  rcases insert_sorted_beside hi with ⟨rfl, hb⟩ | ⟨rfl, rfl⟩
  · exact .inl ⟨rfl, hb⟩
  · rw [if_neg (by decide)]
    simp only [wp_bind, wp_get]
    rcases hf : free s.shm new with _ | m
    · simp only [Option.map_none]
      exact trivial
    · simp only [Option.map_some]
      exact .inr ⟨rfl, m, rfl, rfl⟩

/-! ### Registering -/

/-- **The room after a registration.**  A success takes one structure; a failure leaves room for
one when there was. -/
theorem register_new_room (h : Inv s L) (hk : k ≠ .entry) (hkt : k ≠ .thread)
    {names : Segment → Nat → CStr} {alloc : Segment → Nat × Segment}
    {fill : Nat → Nat → Segment → Segment} {free : Segment → Nat → Option Segment} {addr : Addr}
    {comp_id : Int}
    (halloc : ∀ m, (alloc m).1 = (m.arena.alloc k).1 ∧ (alloc m).2.arena = (m.arena.alloc k).2)
    (hfill : ∀ c x m, (fill c x m).arena = m.arena)
    (hfree : ∀ {m x m'}, free m x = some m' → (m'.arena.pool k).free_ptr = x) :
    Wp (register_new k names alloc fill free addr comp_id) s (fun r s' =>
      (r = 0 ∧ Arena.Beside k (s.shm.arena.alloc k).2 s'.shm.arena) ∨
        (r ≠ 0 ∧ (s'.shm.arena.Full k ↔ s.shm.arena.Full k))) fun _ _ => True := by
  have hE : -EINVAL ≠ 0 := by decide
  have hM : -ENOMEM ≠ 0 := by decide
  unfold register_new
  simp only [wp_bind, wp_get]
  set m : Segment := { s.shm with mutex := true } with hm
  rw [wp_open h.attached h.unlocked]
  have hg : Good m L := h.locked
  have refuse : ∀ e : Int, e ≠ 0 → Wp (do rtapi_mutex_give; return e : Prog σ Int) (opened s m)
      (fun r s' => (r = 0 ∧ Arena.Beside k (s.shm.arena.alloc k).2 s'.shm.arena) ∨
        (r ≠ 0 ∧ (s'.shm.arena.Full k ↔ s.shm.arena.Full k))) fun _ _ => True := fun e he => by
    rw [wp_bind, wp_close rfl]
    exact .inr ⟨he, Iff.rfl⟩
  rcases find_comp_cases hg.shape comp_id with ⟨hf, -⟩ | ⟨c, -, hc0, hf, -, -⟩
  · rw [wp_walk_opened hf, if_pos rfl]
    exact refuse _ hE
  rw [wp_walk_opened hf, if_neg hc0]
  refine .ite (fun _ => refuse _ hE) fun _ => ?_
  rw [wp_bind, wp_look_opened]
  refine .ite (fun _ => refuse _ hE) fun _ => ?_
  rw [wp_bind, wp_take_opened]
  obtain ⟨hx, ha⟩ := halloc m
  have hx' : (alloc m).1 = (s.shm.arena.alloc k).1 := hx
  have ha' : (alloc m).2.arena = (s.shm.arena.alloc k).2 := ha
  by_cases hfull : s.shm.arena.Full k
  · -- nothing was allocated
    rw [Shape.alloc_full hfull] at hx' ha'
    rw [hx', if_pos rfl]
    simp only [wp_bind, wp_pure]
    refine .inr ⟨hM, ?_⟩
    show (alloc m).2.arena.Full k ↔ _
    rw [ha']
  have h0 : (s.shm.arena.alloc k).1 ≠ 0 := (h.good.shape.alloc hk hkt hfull).1
  rw [hx', if_neg h0, wp_bind, wp_change_opened, wp_bind]
  refine (insert_new_beside _).mono (fun inserted s' hs' => ?_) fun _ _ => id
  rcases hs' with ⟨rfl, hb⟩ | ⟨rfl, m', hm', hs'⟩
  · rw [if_pos rfl]
    refine .inl ⟨rfl, ?_⟩
    have e : (opened s (fill c (s.shm.arena.alloc k).1 (alloc m).2)).shm.arena =
        (s.shm.arena.alloc k).2 := (hfill _ _ _).trans ha'
    rwa [e] at hb
  · -- the structure is on the free list
    rw [if_neg (by decide)]
    refine .inr ⟨hE, iff_of_false (fun hf => h0 ?_) hfull⟩
    rw [← hfree hm', ← hs']
    exact hf.1

theorem alloc_param_eq (m : Segment) : m.alloc_param_struct.1 = (m.arena.alloc .param).1 ∧
    m.alloc_param_struct.2.arena = (m.arena.alloc .param).2 := by
  simp only [Segment.alloc_param_struct]
  split_ifs <;> exact ⟨rfl, rfl⟩

theorem alloc_pin_eq (m : Segment) : m.alloc_pin_struct.1 = (m.arena.alloc .pin).1 ∧
    m.alloc_pin_struct.2.arena = (m.arena.alloc .pin).2 := by
  simp only [Segment.alloc_pin_struct]
  split_ifs <;> exact ⟨rfl, rfl⟩

theorem alloc_funct_eq (m : Segment) : m.alloc_funct_struct.1 = (m.arena.alloc .funct).1 ∧
    m.alloc_funct_struct.2.arena = (m.arena.alloc .funct).2 := by
  simp only [Segment.alloc_funct_struct]
  split_ifs <;> exact ⟨rfl, rfl⟩

/-- What is freed is the next to be had. -/
theorem free_param_ptr (m : Segment) (x : Nat) :
    ((m.free_param_struct x).arena.pool .param).free_ptr = x := by
  simp [Segment.free_param_struct, Segment.pushFree, Segment.onArena, Arena.setPool, Pool.pushFree]

theorem free_pin_ptr (m : Segment) (base : Addr) (x : Nat) :
    ((m.free_pin_struct base x).arena.pool .pin).free_ptr = x := by
  simp [Segment.free_pin_struct, Segment.pushFree, Segment.onArena, Arena.setPool, Pool.pushFree]

theorem hal_param_new_room (h : Inv s L) (name : CStr) (type : HalType) (dir : ParamDir)
    (data_addr : Addr) (comp_id : Int) :
    Wp (hal_param_new name type dir data_addr comp_id) s (fun r s' =>
      (r = 0 ∧ Arena.Beside .param (s.shm.arena.alloc .param).2 s'.shm.arena) ∨
        (r ≠ 0 ∧ (s'.shm.arena.Full .param ↔ s.shm.arena.Full .param))) fun _ _ => True := by
  have hE : -EINVAL ≠ 0 := by decide
  have hP : -EPERM ≠ 0 := by decide
  unfold hal_param_new
  simp only [wp_bind, wp_get]
  refine .ite (fun _ => .inr ⟨hE, Iff.rfl⟩) fun _ => .ite (fun _ => .inr ⟨hE, Iff.rfl⟩) fun _ =>
    .ite (fun _ => .inr ⟨hE, Iff.rfl⟩) fun _ => .ite (fun _ => .inr ⟨hE, Iff.rfl⟩) fun _ =>
    .ite (fun _ => .inr ⟨hP, Iff.rfl⟩) fun _ => ?_
  refine register_new_room h (by decide) (by decide) alloc_param_eq (fun _ _ _ => rfl)
    fun {m x m'} hm => ?_
  cases hm
  exact free_param_ptr m x

theorem hal_pin_new_room (h : Inv s L) (name : CStr) (type : HalType) (data_ptr_addr : Addr)
    (comp_id : Int) :
    Wp (hal_pin_new name type data_ptr_addr comp_id) s (fun r s' =>
      (r = 0 ∧ Arena.Beside .pin (s.shm.arena.alloc .pin).2 s'.shm.arena) ∨
        (r ≠ 0 ∧ (s'.shm.arena.Full .pin ↔ s.shm.arena.Full .pin))) fun _ _ => True := by
  have hE : -EINVAL ≠ 0 := by decide
  have hP : -EPERM ≠ 0 := by decide
  unfold hal_pin_new
  simp only [wp_bind, wp_get]
  refine .ite (fun _ => .inr ⟨hE, Iff.rfl⟩) fun _ => ?_
  rw [wp_bind]
  refine wp_load_or (fun _ => ?_) fun _ => trivial
  refine .ite (fun _ => .inr ⟨hE, Iff.rfl⟩) fun _ =>
    .ite (fun _ => .inr ⟨hE, Iff.rfl⟩) fun _ => .ite (fun _ => .inr ⟨hP, Iff.rfl⟩) fun _ => ?_
  refine register_new_room h (by decide) (by decide) alloc_pin_eq (fun _ _ _ => rfl)
    fun {m x m'} hm => ?_
  cases hm
  exact free_pin_ptr m s.hal_shmem_base x

theorem export_funct_new_room (h : Inv s L) (name : CStr) (funct arg : Addr)
    (uses_fp reentrant comp_id : Int) :
    Wp (export_funct_new name funct arg uses_fp reentrant comp_id) s (fun made s' =>
      ∀ new, made = .ok new → Arena.Beside .funct (s.shm.arena.alloc .funct).2 s'.shm.arena)
      fun _ _ => True := by
  have err : ∀ (e : Int) (s' : State σ) (new : Nat), (Except.error e : Except Int Nat) = .ok new →
      Arena.Beside .funct (s.shm.arena.alloc .funct).2 s'.shm.arena := fun _ _ _ h => nomatch h
  unfold export_funct_new
  simp only [wp_bind]
  set m : Segment := { s.shm with mutex := true } with hm
  rw [wp_open h.attached h.unlocked]
  have hg : Good m L := h.locked
  rcases find_comp_cases hg.shape comp_id with ⟨hf, -⟩ | ⟨c, -, hc0, hf, -, -⟩
  · rw [wp_walk_opened hf, if_pos rfl, wp_bind, wp_close rfl]
    exact err _ _
  rw [wp_walk_opened hf, if_neg hc0, wp_bind, wp_look_opened]
  refine .ite (fun _ => ?_) fun _ => ?_
  · rw [wp_bind, wp_close rfl]
    exact err _ _
  rw [wp_bind, wp_look_opened]
  refine .ite (fun _ => ?_) fun _ => ?_
  · rw [wp_bind, wp_close rfl]
    exact err _ _
  rw [wp_bind, wp_take_opened]
  have ha : m.alloc_funct_struct.2.arena = (s.shm.arena.alloc .funct).2 := (alloc_funct_eq m).2
  refine .ite (fun _ => ?_) fun _ => ?_
  · simp only [wp_bind, wp_pure]
    exact err _ _
  rw [wp_bind, wp_change_opened, wp_bind]
  refine (insert_new_beside _).mono (fun inserted s' hs' => ?_) fun _ _ => id
  rcases hs' with ⟨rfl, hb⟩ | ⟨rfl, -⟩
  · rw [if_pos rfl]
    refine fun _ _ => ?_
    rw [← ha]
    exact hb
  · rw [if_neg (by decide)]
    exact err _ _

/-! ### What a refused name leaves -/

theorem insert_new_spare {names : Segment → Nat → CStr} {free : Segment → Nat → Option Segment}
    {new : Nat} (hfree : ∀ {m x m'}, free m x = some m' → (m'.arena.pool k).free_ptr = x)
    (s : State σ) :
    Wp (insert_new k names free new) s (fun inserted s' =>
      inserted = true ∨ (s'.shm.arena.pool k).free_ptr = new) fun _ _ => True :=
  (insert_new_beside s).mono (fun _ _ hs => hs.imp And.left fun ⟨_, _, hm, e⟩ => e ▸ hfree hm)
    fun _ _ => id

/-- **A structure that was had is listed or idle.** -/
theorem register_new_spare (h : Inv s L) (hk : k ≠ .entry) (hkt : k ≠ .thread)
    {names : Segment → Nat → CStr} {alloc : Segment → Nat × Segment}
    {fill : Nat → Nat → Segment → Segment} {free : Segment → Nat → Option Segment} {addr : Addr}
    {comp_id : Int} {c : Nat} {comp : Comp}
    (hf : (view s.shm L).findComp comp_id = some (c, comp)) (hr : comp.ready = 0)
    (hin : SHMCHK s.hal_shmem_base addr = true) (hroom : ¬ s.shm.arena.Full k)
    (halloc : ∀ m, (alloc m).1 = (m.arena.alloc k).1)
    (hfree : ∀ {m x m'}, free m x = some m' → (m'.arena.pool k).free_ptr = x) :
    Wp (register_new k names alloc fill free addr comp_id) s (fun r s' =>
      r = 0 ∨ (s'.shm.arena.pool k).free_ptr ≠ 0) fun _ _ => True := by
  unfold register_new
  simp only [wp_bind, wp_get]
  set m : Segment := { s.shm with mutex := true } with hm
  rw [wp_open h.attached h.unlocked]
  rcases find_comp_cases h.locked.shape comp_id with ⟨-, hv⟩ | ⟨c', -, hc0, hw, hv, -⟩
  · exact absurd (hf.symm.trans hv) (Option.some_ne_none _)
  obtain ⟨rfl, rfl⟩ := Prod.mk.inj (Option.some.inj (hf.symm.trans hv))
  rw [wp_walk_opened hw, if_neg hc0, if_neg (by simpa using hin), wp_bind, wp_look_opened,
    if_neg (not_not_intro hr), wp_bind, wp_take_opened]
  have hx : (alloc m).1 = (s.shm.arena.alloc k).1 := halloc m
  have h0 : (s.shm.arena.alloc k).1 ≠ 0 := (h.good.shape.alloc hk hkt hroom).1
  rw [hx, if_neg h0, wp_bind, wp_change_opened, wp_bind]
  refine (insert_new_spare hfree _).mono (fun inserted s' hs' => ?_) fun _ _ => id
  cases inserted with
  | true => exact .inl rfl
  | false =>
      rw [if_neg (by decide)]
      exact .inr (hs'.resolve_left Bool.false_ne_true ▸ h0)

theorem hal_param_new_spare (h : Inv s L) {name : CStr} {type : HalType} {dir : ParamDir}
    {data_addr : Addr} {comp_id : Int} {c : Nat} {comp : Comp}
    (hf : (view s.shm L).findComp comp_id = some (c, comp)) (hr : comp.ready = 0)
    (hl : ¬ s.shm.lock &&& HAL_LOCK_LOAD ≠ 0) (hn : ¬ name.length > HAL_NAME_LEN)
    (ht : Registry.paramType type) (hd : ¬ (dir ≠ .ro ∧ dir ≠ .rw))
    (hin : SHMCHK s.hal_shmem_base data_addr = true) (hroom : ¬ s.shm.arena.Full .param) :
    Wp (hal_param_new name type dir data_addr comp_id) s (fun r s' =>
      r = 0 ∨ (s'.shm.arena.pool .param).free_ptr ≠ 0) fun _ _ => True := by
  unfold hal_param_new
  simp only [wp_bind, wp_get]
  refine .ite (fun h₀ => absurd h₀ h.attached) fun _ => .ite (fun ht' => ?_) fun _ =>
    .ite (fun hd' => absurd hd' hd) fun _ => .ite (fun hn' => absurd hn' hn) fun _ =>
    .ite (fun hl' => absurd hl' hl) fun _ => ?_
  · simp only [Registry.paramType] at ht
    tauto
  · exact register_new_spare h (by decide) (by decide) hf hr hin hroom
      (fun m => (alloc_param_eq m).1) fun {m x m'} hm => by
        cases hm
        exact free_param_ptr m x

theorem hal_pin_new_spare (h : Inv s L) {name : CStr} {type : HalType} {data_ptr_addr : Addr}
    {comp_id : Int} {c : Nat} {comp : Comp}
    (hf : (view s.shm L).findComp comp_id = some (c, comp)) (hr : comp.ready = 0)
    (hl : ¬ s.shm.lock &&& HAL_LOCK_LOAD ≠ 0) (hn : ¬ name.length > HAL_NAME_LEN)
    (ht : Registry.paramType type ∨ type = .port)
    (hin : SHMCHK s.hal_shmem_base data_ptr_addr = true) (hroom : ¬ s.shm.arena.Full .pin) :
    Wp (hal_pin_new name type data_ptr_addr comp_id) s (fun r s' =>
      r = 0 ∨ (s'.shm.arena.pool .pin).free_ptr ≠ 0) fun _ _ => True := by
  unfold hal_pin_new
  simp only [wp_bind, wp_get]
  refine .ite (fun h₀ => absurd h₀ h.attached) fun _ => ?_
  rw [wp_bind, wp_load (.inl hin)]
  refine .ite (fun ht' => ?_) fun _ => .ite (fun hn' => absurd hn' hn) fun _ => .ite (fun hl' => absurd hl' hl) fun _ => ?_
  · simp only [Registry.paramType] at ht
    tauto
  · exact register_new_spare h (by decide) (by decide) hf hr hin hroom
      (fun m => (alloc_pin_eq m).1) fun {m x m'} hm => by
        cases hm
        exact free_pin_ptr m s.hal_shmem_base x

/-- The function too. -/
theorem export_funct_new_spare (h : Inv s L) (name : CStr) (funct arg : Addr)
    {uses_fp reentrant comp_id : Int} {c : Nat} {comp : Comp}
    (hf : (view s.shm L).findComp comp_id = some (c, comp)) (hr : comp.ready = 0)
    (ht : comp.type ≠ .user) (hroom : ¬ s.shm.arena.Full .funct) :
    Wp (export_funct_new name funct arg uses_fp reentrant comp_id) s (fun made s' =>
      code made = 0 ∨ (s'.shm.arena.pool .funct).free_ptr ≠ 0) fun _ _ => True := by
  unfold export_funct_new
  simp only [wp_bind]
  set m : Segment := { s.shm with mutex := true } with hm
  rw [wp_open h.attached h.unlocked]
  rcases find_comp_cases h.locked.shape comp_id with ⟨-, hv⟩ | ⟨c', -, hc0, hw, hv, -⟩
  · exact absurd (hf.symm.trans hv) (Option.some_ne_none _)
  obtain ⟨rfl, rfl⟩ := Prod.mk.inj (Option.some.inj (hf.symm.trans hv))
  rw [wp_walk_opened hw, if_neg hc0, wp_bind, wp_look_opened, if_neg ht, wp_bind, wp_look_opened,
    if_neg (not_not_intro hr), wp_bind, wp_take_opened]
  have hx : m.alloc_funct_struct.1 = (s.shm.arena.alloc .funct).1 := (alloc_funct_eq m).1
  have h0 : (s.shm.arena.alloc .funct).1 ≠ 0 :=
    (h.good.shape.alloc (by decide) (by decide) hroom).1
  rw [hx, if_neg h0, wp_bind, wp_change_opened, wp_bind]
  refine (insert_new_spare (fun {m x m'} hm' => ?_) _).mono (fun inserted s' hs' => ?_) fun _ _ => id
  · obtain ⟨m₁, -, rfl⟩ := Option.map_eq_some_iff.mp hm'
    simp [Segment.pushFree, Segment.onArena, Arena.setPool, Pool.pushFree]
  · cases inserted with
    | true => exact .inl rfl
    | false =>
        rw [if_neg (by decide)]
        exact .inr (hs'.resolve_left Bool.false_ne_true ▸ h0)

/-! ### Components and threads -/

theorem insert_head_beside (m : Segment) (x : Nat) :
    Arena.Beside k m.arena (m.insert_head k x).arena :=
  insertAt_beside m .root x

theorem hal_init_comp_room (R : Rtapi σ) (h : Inv s L) (name : CStr) :
    Wp (hal_init_comp R name) s (fun r s' =>
      ¬ r < 0 → Arena.Beside .comp (s.shm.arena.alloc .comp).2 s'.shm.arena) fun _ _ => True := by
  have hE : -EINVAL < 0 := by decide
  have hM : -ENOMEM < 0 := by decide
  unfold hal_init_comp
  set m : Segment := { s.shm with mutex := true } with hm
  have hg : Good m L := h.locked
  rw [wp_bind, wp_call]
  refine .ite (fun _ => fun hr => absurd hE hr) fun _ => ?_
  have h₁ := ((Moved.refl h).outside (R.init (rtapi_name name) s.rt).2 s.ref_cnt s.strikes).inv
  rw [wp_bind, wp_open h₁.attached h₁.unlocked, wp_bind]
  have refuse : ∀ (m : Segment) (e id : Int), e < 0 → m.mutex = true →
      Wp (do rtapi_mutex_give; let _ ← call (R.exit id); return e : Prog σ Int)
        (opened { s with rt := (R.init (rtapi_name name) s.rt).2 } m) (fun r s' =>
          ¬ r < 0 → Arena.Beside .comp (s.shm.arena.alloc .comp).2 s'.shm.arena)
        fun _ _ => True := fun m e id he hm => by
    rw [wp_bind, wp_close hm, wp_bind, wp_call]
    exact fun hr => absurd he hr
  rcases find_comp_name_cases hg.shape (rt_snprintf (HAL_NAME_LEN + 1) name) with
    ⟨hf, -⟩ | ⟨x, -, hx0, -, hf⟩
  swap
  · rw [wp_walk_opened hf, if_pos hx0]
    exact refuse _ _ _ hE rfl
  rw [wp_walk_opened hf, if_neg (by decide), wp_bind, wp_take_opened]
  rcases alloc_comp_cases hg.shape with ⟨-, ha⟩ | ⟨x, a, -, hx0, -, -, ha⟩
  · rw [ha, if_pos rfl]
    exact refuse _ _ _ hM rfl
  have harena : a = (s.shm.arena.alloc .comp).2 := by
    have e : m.halpr_alloc_comp_struct.2.arena = a := by
      rw [ha]
      rfl
    rw [← e]
    simp only [Segment.halpr_alloc_comp_struct]
    split_ifs <;> rfl
  rw [ha, if_neg hx0]
  subst harena
  intro _
  exact insert_head_beside { s.shm with arena := (s.shm.arena.alloc .comp).2 } x

/-- The room after a component was added. -/
theorem hal_init_room (R : Rtapi σ) (h : Inv s L) (name : CStr) :
    Wp (hal_init R (some name)) s (fun r s' =>
      ¬ r < 0 → Arena.Beside .comp (s.shm.arena.alloc .comp).2 s'.shm.arena) fun _ _ => True := by
  unfold hal_init
  refine .ite (fun _ => fun hr => absurd (by decide) hr) fun _ => ?_
  rw [wp_bind, wp_get, if_neg h.mem_id]
  exact hal_init_comp_room R h name

theorem create_thread_insert_room (R : Rtapi σ) (s : State σ) (new period_nsec : Nat)
    (uses_fp priority : Int) :
    Wp (create_thread_insert R new period_nsec uses_fp priority) s (fun listed s' =>
      listed ≠ none → Arena.Beside .thread s.shm.arena s'.shm.arena) fun _ _ => True := by
  have undone : ∀ (x : Prog σ Unit) (s' : State σ),
      Wp (do x; rtapi_mutex_give; return none : Prog σ (Option Nat)) s' (fun listed s'' =>
        listed ≠ none → Arena.Beside .thread s.shm.arena s''.shm.arena) fun _ _ => True :=
    fun x s' => wp_bind.mpr (.of_forall (fun _ _ hn => absurd rfl hn) fun _ _ => trivial)
  unfold create_thread_insert
  rw [wp_bind, wp_get, wp_bind, wp_change, wp_bind, wp_call]
  refine .ite (fun _ => undone _ _) fun _ => ?_
  rw [wp_bind, wp_change, wp_bind, wp_call]
  refine .ite (fun _ => ?_) fun _ => ?_
  · exact wp_bind.mpr (.of_forall (fun _ _ => undone _ _) fun _ _ => trivial)
  · rw [wp_bind, wp_change, wp_bind, wp_mutex_give]
    exact fun _ => insert_head_beside s.shm new

/-- The room after a thread was listed. -/
theorem create_thread_task_room (R : Rtapi σ) (h : Inv s L) (name : CStr) (period_nsec : Nat)
    (uses_fp priority : Int) :
    Wp (create_thread_task R name period_nsec uses_fp priority) s (fun made s' =>
      ∀ new, made = .ok new → Arena.Beside .thread (s.shm.arena.alloc .thread).2 s'.shm.arena)
      fun _ _ => True := by
  have err : ∀ (e : Int) (s' : State σ) (new : Nat), (Except.error e : Except Int Nat) = .ok new →
      Arena.Beside .thread (s.shm.arena.alloc .thread).2 s'.shm.arena := fun _ _ _ h => nomatch h
  unfold create_thread_task
  set m : Segment := { s.shm with mutex := true } with hm
  rw [wp_bind, wp_open h.attached h.unlocked, wp_bind]
  rcases find_thread_cases h.locked.shape name with ⟨hf, -⟩ | ⟨x, -, hx0, hf, -, -⟩
  swap
  · rw [wp_walk_opened hf, if_pos hx0, wp_bind, wp_close rfl]
    exact err _ _
  rw [wp_walk_opened hf, if_neg (by decide), wp_bind, wp_take_opened]
  refine .ite (fun _ => ?_) fun _ => ?_
  · simp only [wp_bind]
    exact err _ _
  rw [wp_bind, wp_change_opened]
  have harena : m.alloc_thread_struct.2.arena.brk = (s.shm.arena.alloc .thread).2.brk ∧
      m.alloc_thread_struct.2.arena.pool = (s.shm.arena.alloc .thread).2.pool := by
    simp only [Segment.alloc_thread_struct]
    split_ifs <;> exact ⟨rfl, rfl⟩
  -- both ways to the insertion
  have hinsert : ∀ s₁ : State σ, s₁.shm.arena = m.alloc_thread_struct.2.arena →
      Wp (do let listed ← create_thread_insert R m.alloc_thread_struct.1 period_nsec uses_fp priority
             return listed.elim (.error (-EINVAL)) .ok : Prog σ (Except Int Nat)) s₁
        (fun made s' => ∀ new, made = .ok new →
          Arena.Beside .thread (s.shm.arena.alloc .thread).2 s'.shm.arena) fun _ _ => True :=
      fun s₁ ha => by
    rw [wp_bind]
    refine (create_thread_insert_room R s₁ _ _ _ _).mono (fun listed s' hb new hnew => ?_)
      fun _ _ => id
    have hb := hb fun e => by rw [e] at hnew; cases hnew
    rw [ha] at hb
    exact ⟨hb.brk.trans harena.1, fun k hk => (hb.pool k hk).trans (congrFun harena.2 k),
      hb.free.trans (congrArg Pool.free_ptr (congrFun harena.2 .thread))⟩
  rw [wp_bind, wp_look_opened]
  refine .ite (fun _ => ?_) fun _ => hinsert _ rfl
  rw [wp_bind, wp_create_thread_clock]
  refine .ite (fun _ => hinsert _ rfl) fun _ => ?_
  exact wp_bind.mpr (.of_forall (fun _ s' => wp_bind.mpr (.of_forall
    (fun _ s'' => err _ s'') fun _ _ => trivial)) fun _ _ => trivial)

end RTS.Hal

import RealTimeSystem.Hal.Twins

/-!
# HAL — the functions of two segments

Each function of `Segment.lean` does the same in two segments that are `Twins`, and leaves them so.
`Next` is for a function that makes no structure, and `Took` for an `alloc_*_struct`.

The one place where the memory shows is `free_param_struct`: the other segment gives back what the
parameter has as its old name.
-/

namespace RTS.Hal

open RTS.Support

theorem Alike.comp {m m' : Segment} {x : Nat} (h : Alike m m' .comp x) :
    (m'.comp x).comp_id = (m.comp x).comp_id ∧ (m'.comp x).type = (m.comp x).type ∧
      (m'.comp x).ready = (m.comp x).ready ∧ (m'.comp x).shmem_base = (m.comp x).shmem_base ∧
      (m'.comp x).name = (m.comp x).name := by
  simpa [Alike, Comp.known] using h

theorem Alike.pin {m m' : Segment} {x : Nat} (h : Alike m m' .pin x) :
    (m.pin x).oldname = 0 ∧ (m'.pin x).oldname = 0 ∧ (m'.pin x).name = (m.pin x).name := by
  obtain ⟨h, h₀⟩ := h
  simp only [Pin.known, Prod.mk.injEq] at h
  exact ⟨h₀, h.1.trans h₀, h.2⟩

theorem Alike.param {m m' : Segment} {x : Nat} (h : Alike m m' .param x) :
    (m'.param x).owner_ptr = (m.param x).owner_ptr ∧ (m'.param x).name = (m.param x).name := by
  simpa [Alike, Param.known] using h

theorem Alike.thread {m m' : Segment} {x : Nat} (h : Alike m m' .thread x) :
    (m'.thread x).uses_fp = (m.thread x).uses_fp ∧ (m'.thread x).task_id = (m.thread x).task_id ∧
      (m'.thread x).name = (m.thread x).name := by
  simpa [Alike, Thread.known] using h

/-- After a function that makes no structure. -/
def Next (b : Bond) (m n n' : Segment) : Prop := Twins b n n' ∧ n.arena.carved = m.arena.carved

/-- Nothing was carved in between. -/
theorem Next.of_next {b : Bond} {m n p p' : Segment} (h : Next b n p p')
    (hc : n.arena.carved = m.arena.carved) : Next b m p p' := ⟨h.1, h.2.trans hc⟩

namespace Twins

variable {b : Bond} {m m' : Segment} {k : Kind} {x y : Nat} {test test' : Nat → Bool}

/-- The list and the free list of a kind. -/
theorem pool (h : Twins b m m') (hk : Arena.Queued k) :
    (m.arena.pool k).Agree (m.arena.carved k) (m'.arena.pool k) :=
  h.choose_spec.arena.pool k hk

/-- A structure that was carved has the same contents on both sides. -/
theorem same (h : Twins b m m') (hx : x ∈ m.arena.carved k) : Alike m m' k x :=
  h.choose_spec.same k x hx nofun

/-! ### Searching -/

/-- A search whose test reads only what is the same finds the same. -/
theorem search (h : Twins b m m') (hk : Arena.Queued k)
    (ht : ∀ x ∈ m.arena.carved k, test' x = test x) : m'.search k test' = m.search k test := by
  have hp := h.pool hk
  unfold Segment.search
  rw [hp.list]
  exact hp.find ht hp.list_mem

theorem search_mem (h : Twins b m m') (hk : Arena.Queued k) (hs : m.search k test = some y)
    (hy : y ≠ 0) : y ∈ m.arena.carved k :=
  (h.pool hk).find_mem (h.pool hk).list_mem hs hy

theorem find_comp_by_name (h : Twins b m m') (name : CStr) :
    m'.halpr_find_comp_by_name name = m.halpr_find_comp_by_name name :=
  h.search ⟨by decide, by decide⟩ fun x hx => by rw [(h.same hx).comp.2.2.2.2]

theorem find_comp_by_id (h : Twins b m m') (id : Int) :
    m'.halpr_find_comp_by_id id = m.halpr_find_comp_by_id id :=
  h.search ⟨by decide, by decide⟩ fun x hx => by rw [(h.same hx).comp.1]

theorem find_funct_by_name (h : Twins b m m') (name : CStr) :
    m'.halpr_find_funct_by_name name = m.halpr_find_funct_by_name name :=
  h.search ⟨by decide, by decide⟩ fun x hx => by rw [show m'.funct x = m.funct x from h.same hx]

theorem find_thread_by_name (h : Twins b m m') (name : CStr) :
    m'.halpr_find_thread_by_name name = m.halpr_find_thread_by_name name :=
  h.search ⟨by decide, by decide⟩ fun x hx => by rw [(h.same hx).thread.2.2]

theorem count (h : Twins b m m') (hk : Arena.Queued k) {n : Nat}
    (hx : x ≠ 0 → x ∈ m.arena.carved k) : m'.count k n x = m.count k n x := by
  induction n generalizing x with
  | zero => rfl
  | succ n ih =>
      unfold Segment.count
      by_cases h₀ : x = 0
      · rw [if_pos h₀, if_pos h₀]
      · have hp := h.pool hk
        rw [if_neg h₀, if_neg h₀, hp.next x (hx h₀), ih (hp.next_mem x (hx h₀))]

/-- The counts that `hal_get_stats` reports. -/
theorem count_list (h : Twins b m m') (hk : Arena.Queued k) : m'.count_list k = m.count_list k := by
  unfold Segment.count_list
  rw [(h.pool hk).list]
  exact h.count hk (h.pool hk).list_mem

/-! ### Inserting and unlinking -/

/-- Equal names, so the same place in the list. -/
theorem insert_sorted (h : Twins b m m') (hk : Arena.Queued k) {name name' : Nat → CStr}
    (hname : ∀ y ∈ m.arena.carved k, name' y = name y) (hx : x ∈ m.arena.carved k) :
    Option.Rel (fun r r' => r'.1 = r.1 ∧ Next b m r.2 r'.2) (m.insert_sorted k name x)
      (m'.insert_sorted k name' x) := by
  obtain ⟨ring, ht⟩ := h
  have hp := ht.arena.pool k hk
  unfold Segment.insert_sorted
  rw [hp.seek (fun y hy => by rw [hname y hy, hname x hx]) (c := .root) trivial]
  cases hs : (m.arena.pool k).seek (fun y => 0 ≤ strcmp (name y) (name x)) FUEL .root with
  | none => exact .none
  | some prev =>
      have hin := hp.seek_in (c := .root) trivial hs
      refine .some ?_
      simp only
      rw [hp.deref hin]
      by_cases h₀ : (m.arena.pool k).deref prev = 0
      · rw [if_neg fun e => e.1 h₀, if_neg fun e => e.1 h₀]
        exact ⟨rfl, ⟨ring, ht.setPool hk (hp.insertAt hin hx)⟩, rfl⟩
      · rw [hname _ (hp.deref_mem hin h₀), hname x hx]
        split_ifs
        · exact ⟨rfl, ⟨ring, ht⟩, rfl⟩
        · exact ⟨rfl, ⟨ring, ht.setPool hk (hp.insertAt hin hx)⟩, rfl⟩

/-- Only the head of the list changes. -/
theorem insert_head (h : Twins b m m') (hk : Arena.Queued k) (hx : x ∈ m.arena.carved k) :
    Twins b (m.insert_head k x) (m'.insert_head k x) := by
  obtain ⟨ring, ht⟩ := h
  exact ⟨ring, ht.setPool hk ((ht.arena.pool k hk).insertAt (c := .root) trivial hx)⟩

/-- A structure leaves its list on both sides. -/
theorem unlink (h : Twins b m m') (hk : Arena.Queued k) (prev : Link) (hx : x ∈ m.arena.carved k) :
    Twins b (m.unlink k prev x) (m'.unlink k prev x) := by
  obtain ⟨ring, ht⟩ := h
  exact ⟨ring, ht.setPool hk ((ht.arena.pool k hk).unlink hx)⟩

/-- And comes to the free list. -/
theorem pushFree (h : Twins b m m') (hk : Arena.Queued k) (hx : x ∈ m.arena.carved k) :
    Twins b (m.pushFree k x) (m'.pushFree k x) := by
  obtain ⟨ring, ht⟩ := h
  exact ⟨ring, ht.setPool hk ((ht.arena.pool k hk).pushFree hx)⟩

/-- The clean-up loops. -/
theorem sweep (h : Twins b m m') (hk : Arena.Queued k) (owned : Segment → Nat → Bool)
    (free : Segment → Nat → Option Segment)
    (howned : ∀ {n n' y}, Twins b n n' → y ∈ n.arena.carved k → owned n' y = owned n y)
    (hfree : ∀ {n n' y}, Twins b n n' → y ∈ n.arena.carved k →
      Option.Rel (Next b n) (free n y) (free n' y))
    {n : Nat} (prev : Link) (hin : prev.In (m.arena.carved k)) :
    Option.Rel (Next b m) (Segment.sweep k owned free n m prev)
      (Segment.sweep k owned free n m' prev) := by
  induction n generalizing m m' prev with
  | zero => exact .none
  | succ n ih =>
      have hp := h.pool hk
      unfold Segment.sweep
      simp only
      rw [hp.deref hin]
      by_cases h₀ : (m.arena.pool k).deref prev = 0
      · rw [if_pos h₀, if_pos h₀]
        exact .some ⟨h, rfl⟩
      have hm := hp.deref_mem hin h₀
      rw [if_neg h₀, if_neg h₀, howned h hm]
      by_cases ho : owned m ((m.arena.pool k).deref prev) = true
      · rw [if_pos ho, if_pos ho]
        exact rel_bind (hfree (h.unlink hk prev hm) hm) fun n n' ⟨hn, hc⟩ =>
          rel_mono (ih hn prev (hc.symm ▸ hin)) fun _ _ h' => h'.of_next hc
      · rw [if_neg ho, if_neg ho]
        exact ih h (.after _) hm

/-! ### Function entries -/

/-- An entry that is off the rings goes back to the idle ones. -/
theorem free_funct_entry_struct {ring : Nat → List Nat} {e : Nat}
    (h : Twin b ring [e] none m m') :
    ∃ ring', Twin b ring' [] none (m.free_funct_entry_struct e) (m'.free_funct_entry_struct e) ∧
      (∀ q, ∀ y ∈ q :: ring q, y ∈ q :: ring' q) ∧
      (m.free_funct_entry_struct e).arena.carved = m.arena.carved := by
  have he := h.arena.loose_mem e List.mem_cons_self
  have hs := h.same .entry e he nofun
  unfold Segment.free_funct_entry_struct
  simp only
  rw [hs.1]
  -- the function has one user less
  have hf : Twin b ring [e] none
      (if (m.entry e).funct_ptr > 0 then m.setFunct (m.entry e).funct_ptr
        { m.funct (m.entry e).funct_ptr with users := (m.funct (m.entry e).funct_ptr).users - 1 }
        else m)
      (if (m.entry e).funct_ptr > 0 then m'.setFunct (m.entry e).funct_ptr
        { m'.funct (m.entry e).funct_ptr with users := (m'.funct (m.entry e).funct_ptr).users - 1 }
        else m') := by
    by_cases h₀ : (m.entry e).funct_ptr > 0
    · have hfs : m'.funct (m.entry e).funct_ptr = m.funct (m.entry e).funct_ptr :=
        h.same .funct _ (hs.2 (Nat.ne_of_gt h₀)) nofun
      rw [if_pos h₀, if_pos h₀, hfs]
      exact h.setFunct (.inl rfl) rfl
    · rw [if_neg h₀, if_neg h₀]
      exact h
  have hset := hf.setEntry (x := e) (e := {}) (.inl rfl) rfl fun h => absurd rfl h
  obtain ⟨ring', ha, hkept⟩ :=
    hset.arena.add_after Arena.Twin.free_root (x := FUNCT_ENTRY_FREE) List.mem_cons_self
  refine ⟨ring', hset.relink ha rfl rfl, hkept, ?_⟩
  split_ifs <;> rfl

/-- The loops over one ring. -/
theorem free_entries (test : Entry → Bool) {ring : Nat → List Nat} {r cur n : Nat}
    (h : Twin b ring [] none m m') (hr : r ∈ m.arena.ringRoots) (hcur : cur ∈ r :: ring r) :
    Option.Rel (Next b m) (Segment.free_entries r test n m cur)
      (Segment.free_entries r test n m' cur) := by
  induction n generalizing m m' ring cur with
  | zero => exact .none
  | succ n ih =>
      unfold Segment.free_entries
      by_cases h₀ : cur = r
      · rw [if_pos h₀, if_pos h₀]
        exact .some ⟨⟨ring, h⟩, rfl⟩
      have hin := (List.mem_cons.mp hcur).resolve_left h₀
      have hc := h.arena.wheel r hr cur hin
      have hnext := (h.arena.links cur (.inr hc)).1
      have hstep := h.arena.next_in hr hcur
      rw [if_neg h₀, if_neg h₀, (h.same .entry cur hc nofun).1]
      by_cases ht : test (m.entry cur) = true
      · rw [if_pos ht, if_pos ht]
        simp only
        rw [hnext]
        -- the entry leaves the ring, and what follows it stays
        obtain ⟨ring₁, ha, hkept₁⟩ := h.arena.remove_entry hr hin
        have h₁ := h.relink ha rfl rfl
        obtain ⟨ring₂, h₂, hkept₂, hc₂⟩ := free_funct_entry_struct h₁
        have hroots : ((m.onArena fun a => a.list_remove_entry cur).free_funct_entry_struct
            cur).arena.ringRoots = m.arena.ringRoots := by
          have hc : ((m.onArena fun a => a.list_remove_entry cur).free_funct_entry_struct
              cur).arena.carved = m.arena.carved := hc₂
          unfold Arena.ringRoots
          rw [hc]
        have hne : m.arena.links.next cur ≠ cur := fun e => by
          obtain ⟨xs, ys, hs⟩ := List.append_of_mem hin
          have hring := h.arena.rings.closed r hr
          have hnd := h.arena.rings.nodup r hr
          rw [hs] at hring hnd
          rw [hring.next_mem] at e
          cases ys with
          | nil => exact h₀ e.symm
          | cons y ys =>
              obtain rfl : y = cur := e
              simp [List.nodup_append] at hnd
        exact rel_mono (ih h₂ (hroots.symm ▸ hr) (hkept₂ r _ (hkept₁ r _ hstep hne)))
          fun _ _ h' => h'.of_next hc₂
      · rw [if_neg ht, if_neg ht, hnext]
        exact ih h hr hstep

/-- The walk over the threads meets the same entries. -/
theorem free_users {n t : Nat} {test : Entry → Bool} (h : Twins b m m')
    (ht : t ≠ 0 → t ∈ m.arena.carved .thread) :
    Option.Rel (Next b m) (Segment.free_users test n m t) (Segment.free_users test n m' t) := by
  have hk : Arena.Queued .thread := ⟨by decide, by decide⟩
  induction n generalizing m m' t with
  | zero => exact .none
  | succ n ih =>
      unfold Segment.free_users
      by_cases h₀ : t = 0
      · rw [if_pos h₀, if_pos h₀]
        exact .some ⟨h, rfl⟩
      obtain ⟨ring, hm⟩ := h
      have hroot := Arena.Twin.thread_root (ht h₀)
      rw [if_neg h₀, if_neg h₀]
      simp only
      rw [(hm.arena.links _ (.inl hroot)).1]
      have hfree := free_entries test (n := FUEL) hm hroot
        (hm.arena.next_in hroot List.mem_cons_self)
      refine rel_bind hfree fun n n' ⟨hn, hc⟩ => ?_
      have hp := hn.pool hk
      have hin : t ∈ n.arena.carved .thread := hc.symm ▸ ht h₀
      rw [hp.next t hin]
      exact rel_mono (ih hn (hp.next_mem t hin)) fun _ _ h' => h'.of_next hc

/-! ### Structures -/

/-- The other segment gives back what a parameter has as its old name. -/
theorem free_oldname_struct (h : Twins b m m') (hw : ∃ x ∈ m.arena.carved .param, b.old x ≠ 0)
    (y : Nat) : Twins b m (m'.free_oldname_struct y) := by
  obtain ⟨ring, hm⟩ := h
  refine ⟨ring, { hm with arena := { hm.arena with pool := fun k hk => ?_ }, same := hm.same, wild := fun _ => hw }⟩
  simpa [Segment.free_oldname_struct, Segment.pushFree, Segment.onArena, Arena.setPool, hk.1] using
    hm.arena.pool k hk

/-- The alias of the second segment, where it has one, goes to a list nothing is taken from. -/
theorem free_param_struct (h : Twins b m m') (hx : x ∈ m.arena.carved .param) :
    Twins b (m.free_param_struct x) (m'.free_param_struct x) := by
  have hk : Arena.Queued .param := ⟨by decide, by decide⟩
  have hold := h.choose_spec.old x
  unfold Segment.free_param_struct
  simp only
  rw [if_neg (not_not_intro hold.1), hold.2]
  have h₁ : Twins b m (if b.old x ≠ 0 then m'.free_oldname_struct (b.old x) else m') := by
    by_cases h₀ : b.old x ≠ 0
    · rw [if_pos h₀]
      exact h.free_oldname_struct ⟨x, hx, h₀⟩ _
    · rw [if_neg h₀]
      exact h
  obtain ⟨ring, h₁⟩ := h₁
  have h₂ := h₁.setParam (x := x) (.inl rfl)
    { m.param x with data_ptr := 0, owner_ptr := 0, type := .uninitialized, name := [] }
    { (if b.old x ≠ 0 then m'.free_oldname_struct (b.old x) else m').param x with
      data_ptr := 0, owner_ptr := 0, type := .uninitialized, name := [] } rfl rfl rfl
  exact pushFree ⟨ring, h₂⟩ hk hx

theorem free_pin_struct (h : Twins b m m') (base : Addr) (hx : x ∈ m.arena.carved .pin) :
    Twins b (m.free_pin_struct base x) (m'.free_pin_struct base x) := by
  have hk : Arena.Queued .pin := ⟨by decide, by decide⟩
  obtain ⟨h₀, h₀', -⟩ := (h.same hx).pin
  obtain ⟨ring, h⟩ := h
  unfold Segment.free_pin_struct
  simp only
  rw [if_neg (not_not_intro h₀), if_neg (not_not_intro h₀')]
  have h₁ := h.setPin (x := x) (.inl rfl)
    { m.pin x with
      data_ptr_addr := 0, owner_ptr := 0, type := .uninitialized, signal := 0, name := [] }
    { m'.pin x with
      data_ptr_addr := 0, owner_ptr := 0, type := .uninitialized, signal := 0, name := [] }
    (by rw [Pin.known, Pin.known, h₀, h₀']) h₀
  exact pushFree ⟨ring, h₁.setData _ _ 0⟩ hk hx

/-- The entries of the function go first. -/
theorem free_funct_struct (h : Twins b m m') (hx : x ∈ m.arena.carved .funct) :
    Option.Rel (Next b m) (m.free_funct_struct x) (m'.free_funct_struct x) := by
  have hk : Arena.Queued .funct := ⟨by decide, by decide⟩
  have hf : m'.funct x = m.funct x := h.same hx
  have hp := h.pool (k := .thread) ⟨by decide, by decide⟩
  unfold Segment.free_funct_struct
  rw [hf, hp.list]
  have husers : Option.Rel (Next b m)
      (if (m.funct x).users > 0 then
        Segment.free_users (fun e => e.funct_ptr = x) FUEL m (m.arena.pool .thread).list_ptr
        else some m)
      (if (m.funct x).users > 0 then
        Segment.free_users (fun e => e.funct_ptr = x) FUEL m' (m.arena.pool .thread).list_ptr
        else some m') := by
    split_ifs
    · exact h.free_users hp.list_mem
    · exact .some ⟨h, rfl⟩
  refine rel_map husers fun n n' ⟨hn, hc⟩ => ⟨?_, hc⟩
  obtain ⟨ring, hn⟩ := hn
  exact pushFree ⟨ring, (hn.setFunct (.inl rfl) rfl).setCell _ 0 0⟩ hk (hc.symm ▸ hx)

/-- The clean-up sweeps the same functions and parameters. -/
theorem free_comp_struct (h : Twins b m m') (hx : x ∈ m.arena.carved .comp) :
    Option.Rel (Next b m) (m.free_comp_struct x) (m'.free_comp_struct x) := by
  unfold Segment.free_comp_struct
  have hfuncts := h.sweep (k := .funct) (n := FUEL) ⟨by decide, by decide⟩
    (fun m y => (m.funct y).owner_ptr = x) Segment.free_funct_struct
    (fun hn hy => by rw [show _ = _ from hn.same hy]) (fun hn hy => hn.free_funct_struct hy)
    .root trivial
  refine rel_bind hfuncts fun n n' ⟨hn, hc⟩ => ?_
  have hparams := hn.sweep (k := .param) (n := FUEL) ⟨by decide, by decide⟩
    (fun m y => (m.param y).owner_ptr = x) (fun m y => some (m.free_param_struct y))
    (fun hn hy => by rw [(hn.same hy).param.1])
    (fun hn hy => .some ⟨hn.free_param_struct hy, by
      unfold Segment.free_param_struct
      split_ifs <;> rfl⟩) .root trivial
  refine rel_map hparams fun p p' ⟨hp, hc'⟩ => ⟨?_, hc'.trans hc⟩
  have hin : x ∈ p.arena.carved .comp := (hc'.trans hc).symm ▸ hx
  have hready := (hp.same hin).comp.2.2.1
  obtain ⟨ring, hp⟩ := hp
  have hset := hp.setComp (x := x) (.inl rfl)
    { p.comp x with comp_id := 0, mem_id := 0, type := .user, shmem_base := 0, name := [] }
    { p'.comp x with comp_id := 0, mem_id := 0, type := .user, shmem_base := 0, name := [] }
    (by simp only [Comp.known, hready])
  exact pushFree ⟨ring, hset⟩ ⟨by decide, by decide⟩ hin

theorem clear_thread (h : Twins b m m') (hx : x ∈ m.arena.carved .thread) :
    Option.Rel (Next b m) (m.clear_thread x) (m'.clear_thread x) := by
  obtain ⟨huses, htask, hname⟩ := (h.same hx).thread
  obtain ⟨ring, h⟩ := h
  have hroot := Arena.Twin.thread_root hx
  unfold Segment.clear_thread
  simp only
  have hset := h.setThread (x := x) (.inl rfl)
    { m.thread x with uses_fp := 0, period := 0, priority := 0, task_id := 0 }
    { m'.thread x with uses_fp := 0, period := 0, priority := 0, task_id := 0 }
    (by simp only [Thread.known, hname]) rfl rfl
  rw [show (m'.setThread x _).arena.links.next (x + THREAD_FUNCT_LIST) =
    m.arena.links.next (x + THREAD_FUNCT_LIST) from (h.arena.links _ (.inl hroot)).1]
  have hfree := free_entries (fun _ => true) (n := FUEL) hset hroot
    (h.arena.next_in hroot List.mem_cons_self)
  refine rel_map hfree fun n n' hpost => ?_
  obtain ⟨hn, hc⟩ := hpost
  refine ⟨?_, hc⟩
  have hin : x ∈ n.arena.carved .thread := hc.symm ▸ hx
  obtain ⟨huses, htask, -⟩ := (hn.same hin).thread
  obtain ⟨ring, hn⟩ := hn
  have hset := hn.setThread (x := x) (.inl rfl) { n.thread x with name := [] }
    { n'.thread x with name := [] } (by simp only [Thread.known, huses, htask]) rfl rfl
  exact pushFree ⟨ring, hset⟩ ⟨by decide, by decide⟩ hin

/-! ### Allocation -/

theorem alloc_oldname (a : Arena) (hk : k ≠ .oldname) : (a.alloc k).2.pool .oldname = a.pool .oldname := by
  unfold Arena.alloc
  split
  · exact Function.update_of_ne (Ne.symm hk) ..
  · split
    · rfl
    · exact Function.update_of_ne (Ne.symm hk) ..

/-- A structure is taken, and is not finished. -/
theorem alloc (h : Twins b m m') (hk : Arena.Queued k) (hkt : k ≠ .thread) :
    (m'.arena.alloc k).1 = (m.arena.alloc k).1 ∧
      ((m.arena.alloc k).1 = 0 → Twins b { m with arena := (m.arena.alloc k).2 }
        { m' with arena := (m'.arena.alloc k).2 } ∧ (m.arena.alloc k).2.carved = m.arena.carved) ∧
      ((m.arena.alloc k).1 ≠ 0 → Arena.Twin.Gains k (m.arena.alloc k).1 m.arena (m.arena.alloc k).2 ∧
        ∃ ring, Twin b ring [] (some (k, (m.arena.alloc k).1))
          { m with arena := (m.arena.alloc k).2 } { m' with arena := (m'.arena.alloc k).2 }) := by
  obtain ⟨ring, h⟩ := h
  obtain ⟨he, ha, hnone, hsome⟩ := h.arena.alloc hk hkt
  refine ⟨he, fun h₀ => ⟨⟨ring, h.relink ha (hnone h₀) (alloc_oldname _ hk.1)⟩, hnone h₀⟩,
    fun h₀ => ⟨hsome h₀, ring, h.gain ha (hsome h₀) (alloc_oldname _ hk.1)⟩⟩

/-- After an `alloc_*_struct`, with what it returned. -/
structure Took (b : Bond) (k : Kind) (m : Segment) (r r' : Nat × Segment) : Prop where
  eq : r'.1 = r.1
  twins : Twins b r.2 r'.2
  mem : r.1 ≠ 0 → r.1 ∈ r.2.arena.carved k
  kept : ∀ k y, y ∈ m.arena.carved k → y ∈ r.2.arena.carved k

theorem Gains.kept_all {a a' : Arena} (hg : Arena.Twin.Gains k x a a') (k' : Kind) (y : Nat)
    (hy : y ∈ a.carved k') : y ∈ a'.carved k' := by
  by_cases e : k' = k
  · subst e
    exact hg.kept y hy
  · exact hg.other k' e ▸ hy

/-- A pin is written whole, its alias too. -/
theorem alloc_pin_struct (h : Twins b m m') :
    Took b .pin m m.alloc_pin_struct m'.alloc_pin_struct := by
  obtain ⟨he, hnone, hsome⟩ := h.alloc (k := .pin) ⟨by decide, by decide⟩ (by decide)
  unfold Segment.alloc_pin_struct
  simp only
  rw [he]
  by_cases h₀ : (m.arena.alloc .pin).1 = 0
  · rw [if_pos h₀, if_pos h₀]
    obtain ⟨ht, hc⟩ := hnone h₀
    exact ⟨rfl, ht, fun h => absurd h₀ h, fun k y hy => hc.symm ▸ hy⟩
  · rw [if_neg h₀, if_neg h₀]
    obtain ⟨hg, ring, ht⟩ := hsome h₀
    exact ⟨rfl, ⟨ring, ht.setPin (.inr rfl) _ _ rfl rfl⟩, fun _ => hg.mem, Gains.kept_all hg⟩

/-- The alias of a parameter is not written: it is what the bond says. -/
theorem alloc_param_struct (h : Twins b m m') :
    Took b .param m m.alloc_param_struct m'.alloc_param_struct := by
  obtain ⟨he, hnone, hsome⟩ := h.alloc (k := .param) ⟨by decide, by decide⟩ (by decide)
  unfold Segment.alloc_param_struct
  simp only
  rw [he]
  by_cases h₀ : (m.arena.alloc .param).1 = 0
  · rw [if_pos h₀, if_pos h₀]
    obtain ⟨ht, hc⟩ := hnone h₀
    exact ⟨rfl, ht, fun h => absurd h₀ h, fun k y hy => hc.symm ▸ hy⟩
  · rw [if_neg h₀, if_neg h₀]
    obtain ⟨hg, ring, ht⟩ := hsome h₀
    exact ⟨rfl, ⟨ring, ht.setParam (.inr rfl) _ _ rfl rfl rfl⟩, fun _ => hg.mem, Gains.kept_all hg⟩

theorem alloc_funct_struct (h : Twins b m m') :
    Took b .funct m m.alloc_funct_struct m'.alloc_funct_struct := by
  obtain ⟨he, hnone, hsome⟩ := h.alloc (k := .funct) ⟨by decide, by decide⟩ (by decide)
  unfold Segment.alloc_funct_struct
  simp only
  rw [he]
  by_cases h₀ : (m.arena.alloc .funct).1 = 0
  · rw [if_pos h₀, if_pos h₀]
    obtain ⟨ht, hc⟩ := hnone h₀
    exact ⟨rfl, ht, fun h => absurd h₀ h, fun k y hy => hc.symm ▸ hy⟩
  · rw [if_neg h₀, if_neg h₀]
    obtain ⟨hg, ring, ht⟩ := hsome h₀
    exact ⟨rfl, ⟨ring, ht.setFunct (.inr rfl) rfl⟩, fun _ => hg.mem, Gains.kept_all hg⟩

/-- The `ready` of the component is that of the memory. -/
theorem halpr_alloc_comp_struct (h : Twins b m m') :
    m'.halpr_alloc_comp_struct.1 = m.halpr_alloc_comp_struct.1 ∧
      (m.halpr_alloc_comp_struct.1 = 0 →
        Twins b m.halpr_alloc_comp_struct.2 m'.halpr_alloc_comp_struct.2) ∧
      (m.halpr_alloc_comp_struct.1 ≠ 0 →
        m.halpr_alloc_comp_struct.1 ∈ m.halpr_alloc_comp_struct.2.arena.carved .comp ∧
        (m'.halpr_alloc_comp_struct.2.comp m.halpr_alloc_comp_struct.1).name =
          (m.halpr_alloc_comp_struct.2.comp m.halpr_alloc_comp_struct.1).name ∧
        ∃ ring, Twin b ring [] (some (.comp, m.halpr_alloc_comp_struct.1))
          m.halpr_alloc_comp_struct.2 m'.halpr_alloc_comp_struct.2) ∧
      ∀ k y, y ∈ m.arena.carved k → y ∈ m.halpr_alloc_comp_struct.2.arena.carved k := by
  obtain ⟨he, hnone, hsome⟩ := h.alloc (k := .comp) ⟨by decide, by decide⟩ (by decide)
  unfold Segment.halpr_alloc_comp_struct
  simp only
  rw [he]
  by_cases h₀ : (m.arena.alloc .comp).1 = 0
  · rw [if_pos h₀, if_pos h₀]
    obtain ⟨ht, hc⟩ := hnone h₀
    exact ⟨rfl, fun _ => ht, fun h => absurd h₀ h, fun k y hy => hc.symm ▸ hy⟩
  · rw [if_neg h₀, if_neg h₀]
    obtain ⟨hg, ring, ht⟩ := hsome h₀
    refine ⟨rfl, fun h => absurd h h₀, fun _ => ⟨hg.mem, ?_, ring, ht.setComp_odd _ _⟩,
      Gains.kept_all hg⟩
    simp [Segment.setComp]

theorem alloc_thread_struct (h : Twins b m m') :
    Took b .thread m m.alloc_thread_struct m'.alloc_thread_struct := by
  obtain ⟨ring, h⟩ := h
  obtain ⟨he, hnone, hsome⟩ := h.arena.alloc_thread
  unfold Segment.alloc_thread_struct
  simp only
  rw [he]
  by_cases h₀ : (m.arena.alloc .thread).1 = 0
  · rw [if_pos h₀, if_pos h₀]
    obtain ⟨e, e'⟩ := hnone h₀
    rw [e, e']
    exact ⟨rfl, ⟨ring, h⟩, fun h => absurd h₀ h, fun k y hy => hy⟩
  · rw [if_neg h₀, if_neg h₀]
    obtain ⟨hg, ring', ha⟩ := hsome h₀
    have ht := h.gain ha ⟨hg.mem, hg.only, hg.kept, hg.other⟩ (alloc_oldname _ (by decide))
    have hkept := Gains.kept_all hg
    exact ⟨rfl, ⟨ring', ht.setThread (x := (m.arena.alloc .thread).1) (.inr rfl) _ _ rfl rfl rfl⟩,
      fun _ => hg.mem, fun k y hy => hkept k y hy⟩

/-- A function entry, off the rings; `none` where there is no memory left. -/
theorem alloc_funct_entry_struct {ring : Nat → List Nat} (h : Twin b ring [] none m m') :
    (m.alloc_funct_entry_struct = none ∧ m'.alloc_funct_entry_struct = none) ∨
      ∃ e n n', m.alloc_funct_entry_struct = some (e, n) ∧
        m'.alloc_funct_entry_struct = some (e, n') ∧ n.funct = m.funct ∧
        (∀ k y, y ∈ m.arena.carved k → y ∈ n.arena.carved k) ∧
        ∃ ring', Twin b ring' [e] none n n' ∧
          ∀ r ∈ m.arena.ringRoots, r ≠ FUNCT_ENTRY_FREE → ∀ x ∈ r :: ring r, x ∈ r :: ring' r := by
  unfold Segment.alloc_funct_entry_struct
  rcases h.arena.alloc_entry with ⟨e₁, e₂⟩ | ⟨e, a, a', e₁, e₂, hg, ring', ha, hkept⟩
  · rw [e₁, e₂]
    exact .inl ⟨rfl, rfl⟩
  · rw [e₁, e₂]
    have hold : ∀ {a c : Arena}, c.alloc_entry = some (e, a) → a.pool .oldname = c.pool .oldname := by
      intro a c hc
      unfold Arena.alloc_entry at hc
      simp only at hc
      split_ifs at hc
      · cases hc
        rfl
      · split at hc
        · cases hc
        · cases hc
          rfl
    have hgain := h.gain ha hg (hold e₂)
    exact .inr ⟨e, _, _, rfl, rfl, rfl, Gains.kept_all hg, ring',
      hgain.setEntry (e := {}) (.inr rfl) rfl fun h => absurd rfl h, hkept⟩

/-! ### The rings -/

/-- The walk forward sees the same links. -/
theorem advance {S : Nat → Prop} {next next' : Nat → Nat} {root : Nat} {position n : Int}
    {fuel cur : Nat} (hS : ∀ x, S x → next' x = next x ∧ S (next x)) (hx : S cur) :
    Hal.advance next' root position fuel n cur = Hal.advance next root position fuel n cur ∧
      ∀ e, Hal.advance next root position fuel n cur = some (some e) → S e := by
  induction fuel generalizing n cur with
  | zero => exact ⟨rfl, nofun⟩
  | succ fuel ih =>
      unfold Hal.advance
      simp only
      rw [(hS cur hx).1]
      split_ifs
      · exact ⟨rfl, nofun⟩
      · exact ih (hS cur hx).2
      · exact ⟨rfl, fun e h => by cases h; exact hx⟩

/-- The walk backward sees the same links. -/
theorem retreat {S : Nat → Prop} {prev prev' : Nat → Nat} {root : Nat} {position n : Int}
    {fuel cur : Nat} (hS : ∀ x, S x → prev' x = prev x ∧ S (prev x)) (hx : S cur) :
    Hal.retreat prev' root position fuel n cur = Hal.retreat prev root position fuel n cur ∧
      ∀ e, Hal.retreat prev root position fuel n cur = some (some e) → S e := by
  induction fuel generalizing n cur with
  | zero => exact ⟨rfl, nofun⟩
  | succ fuel ih =>
      unfold Hal.retreat
      simp only
      rw [(hS cur hx).1]
      split_ifs
      · exact ⟨rfl, nofun⟩
      · exact ih (hS cur hx).2
      · exact ⟨rfl, fun e h => by cases h; exact (hS cur hx).2⟩

/-- A position means the same entry on both rings. -/
theorem insertion_point {ring : Nat → List Nat} {r : Nat} (h : Twin b ring [] none m m')
    (hr : r ∈ m.arena.ringRoots) (position : Int) :
    Hal.insertion_point m' r position = Hal.insertion_point m r position ∧
      ∀ e, Hal.insertion_point m r position = some (some e) → e ∈ r :: ring r := by
  unfold Hal.insertion_point
  split_ifs
  · exact advance (S := fun x => x ∈ r :: ring r) (fun x hx =>
      ⟨(h.arena.links x (h.arena.ring_linked hr hx)).1, h.arena.next_in hr hx⟩) List.mem_cons_self
  · exact retreat (S := fun x => x ∈ r :: ring r) (fun x hx =>
      ⟨(h.arena.links x (h.arena.ring_linked hr hx)).2, h.arena.prev_in hr hx⟩) List.mem_cons_self

/-- The first entry of a function is the same. -/
theorem find_entry (funct : Nat) {ring : Nat → List Nat} {r n cur : Nat} (h : Twin b ring [] none m m')
    (hr : r ∈ m.arena.ringRoots) (hcur : cur ∈ r :: ring r) :
    Hal.find_entry m' r funct n cur = Hal.find_entry m r funct n cur ∧
      ∀ e, Hal.find_entry m r funct n cur = some (some e) → e ∈ ring r := by
  induction n generalizing cur with
  | zero => exact ⟨rfl, nofun⟩
  | succ n ih =>
      unfold Hal.find_entry
      by_cases h₀ : cur = r
      · rw [if_pos h₀, if_pos h₀]
        exact ⟨rfl, nofun⟩
      have hin := (List.mem_cons.mp hcur).resolve_left h₀
      have hc := h.arena.wheel r hr cur hin
      rw [if_neg h₀, if_neg h₀, (h.same .entry cur hc nofun).1, (h.arena.links cur (.inr hc)).1]
      split_ifs
      · exact ⟨rfl, fun e h => by cases h; exact hin⟩
      · exact ih (h.arena.next_in hr hcur)

end Twins

end RTS.Hal

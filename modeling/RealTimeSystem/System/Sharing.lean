import RealTimeSystem.Support.Outline
import RealTimeSystem.Support.Steps
import RealTimeSystem.Uspace.Handles
import RealTimeSystem.Uspace.SysV

/-!
# System — processes that share segments

Any number of processes that open and close handles, each system call one action, in any order.

`rtapi_shmem_delete` removes a segment after it found nobody attached, and `rtapi_shmem_new` removes
one that it could not attach; either may come when another process has the segment mapped.
-/

namespace RTS.Uspace

open RTS.Support Ipc

/-- Processes `P`, each in a call or between two, and the segments. -/
structure World (P : Type) where
  prog : P → Tree Process Call Call.Answer Int := fun _ => .ret 0 {}
  ipc : Ipc P := {}

/-- The handle is of a segment that is mapped. -/
def Handle.Live (h : Handle) : Prop :=
  h.magic = SHMEM_MAGIC ∧ (h.state = .active ∨ h.state = .attached)

namespace World

variable {P : Type} [DecidableEq P]

/-- A process makes a call on shared memory, or its system call is answered. -/
inductive Act (P : Type) where
  | call (p : P) (op : ShmOp)
  | answer (p : P) (o : (c : Call) → c.Answer)

def step : Act P → World P → Option (World P)
  | .call p op, w =>
      match w.prog p with
      | .ret _ s => some { w with prog := Function.update w.prog p (op.run s) }
      | .ask .. => none
  | .answer p o, w =>
      match w.prog p with
      | .ret .. => none
      | .ask _ c f => (serve p c (o c) w.ipc).map fun k =>
          { prog := Function.update w.prog p (f (o c)), ipc := k }

def state (w : World P) (p : P) : Process := (w.prog p).state

/-- Handles of one key that are live at the same time have the same segment mapped. -/
def OneSegment (w : World P) : Prop :=
  ∀ p q i j, ((w.state p).shmem_array i).Live → ((w.state q).shmem_array j).Live →
    ((w.state p).shmem_array i).key = ((w.state q).shmem_array j).key →
    ∃ id, w.ipc.mapOf p ((w.state p).shmem_array i).mem = some id ∧
      w.ipc.mapOf q ((w.state q).shmem_array j).mem = some id

/-- The process has a live handle of the segment. -/
def Holds (k : Ipc P) (p : P) (s : Process) (id : Nat) : Prop :=
  ∃ i, (s.shmem_array i).Live ∧ k.mapOf p (s.shmem_array i).mem = some id

/-- The process has the identifier of the segment from `shmget`, and is to attach it. -/
def Awaits (s : Process) (id : Nat) : Prop :=
  ∃ i, (s.shmem_array i).state = .created ∧ (s.shmem_array i).id = id

/-- A segment is removed while nobody is attached, or while no process holds it or another is to
attach it. -/
def Careful (w : World P) : Act P → Prop
  | .call _ _ => True
  | .answer p o =>
      match w.prog p with
      | .ret .. => True
      | .ask _ c _ => ∀ id : Nat, removes c (o c) = some (id : Int) →
          w.ipc.nattch id = 0 ∨
            (∀ q, ¬ Holds w.ipc q (w.state q) id) ∧ ∀ q, q ≠ p → ¬ Awaits (w.state q) id

/-! ### What a process knows -/

/-- Every live handle has a segment mapped that its key leads to, each at an address of its own. -/
structure Kept (p : P) (s : Process) (k : Ipc P) : Prop where
  wf : k.Wf
  mapped : ∀ i, (s.shmem_array i).Live →
    ∃ id, k.mapOf p (s.shmem_array i).mem = some id ∧ k.Names (s.shmem_array i).key id
  apart : ∀ i j, (s.shmem_array i).Live → (s.shmem_array j).Live →
    (s.shmem_array i).mem = (s.shmem_array j).mem → i = j

/-- The slot `i` has the identifier `id` from `shmget (key, …)`: if that is a segment still, the key
leads to it. -/
structure Awaiting (s : Process) (k : Ipc P) (i id : Nat) (key : Int) : Prop where
  created : (s.shmem_array i).state = .created
  ident : (s.shmem_array i).id = id
  lt : id < k.next
  keyed : k.Keyed id key

/-- The annotation of a question; the slot with its identifier and key, if one is awaiting. -/
def Knows (p : P) (x : Option (Nat × Nat × Int)) (s : Process) (k : Ipc P) : Prop :=
  Kept p s k ∧ ∀ i id key, x = some (i, id, key) → Awaiting s k i id key

/-- An answer to a process that is careful as far as its own handles go. -/
def Serves (p : P) (s : Process) (c : Call) (a : c.Answer) (k k' : Ipc P) : Prop :=
  serve p c a k = some k' ∧
    ∀ id : Nat, removes c a = some (id : Int) → k.nattch id = 0 ∨ ¬ Holds k p s id

section
variable {p q : P} {s : Process} {k k' : Ipc P} {c : Call} {a : c.Answer}

/-- An answer that leaves the mappings of the process. -/
theorem Kept.of_serve (h : Kept p s k) (hs : serve q c a k = some k')
    (hr : ∀ id : Nat, removes c a = some (id : Int) → k.nattch id = 0 ∨ ¬ Holds k p s id)
    (hm : ∀ addr, k'.mapOf p addr = k.mapOf p addr) : Kept p s k' where
  wf := h.wf.served hs
  mapped i hi := by
    obtain ⟨id, hid, hn⟩ := h.mapped i hi
    refine ⟨id, (hm _).trans hid, hn.served h.wf hs fun hrem => ?_⟩
    rcases hr id hrem with h₀ | hnot
    · exact mapOf_nattch hid h₀
    · exact hnot ⟨i, hi, hid⟩
  apart := h.apart

theorem Kept.serves (h : Kept p s k) (hs : Serves p s c a k k') (hc : maps c = false) :
    Kept p s k' :=
  h.of_serve hs.1 hs.2 (mapOf_unmoved hc hs.1)

theorem Knows.serves {x : Option (Nat × Nat × Int)} (h : Knows p x s k)
    (hs : Serves p s c a k k') (hc : maps c = false) (hr : removes c a = none) :
    Knows p x s k' := by
  refine ⟨h.1.serves hs hc, fun i id key hx => ?_⟩
  obtain ⟨hcr, hid, hlt, hkey⟩ := h.2 i id key hx
  have hkeep := hkey.served hlt hs.1 fun he => absurd (hr.symm.trans he) nofun
  exact ⟨hcr, hid, Nat.lt_of_lt_of_le hlt (next_served hs.1), hkeep⟩

/-- What a process knows lasts while others go on, if they are careful. -/
theorem Knows.stable {x : Option (Nat × Nat × Int)} (h : Knows p x s k) (hq : p ≠ q)
    (hs : serve q c a k = some k')
    (hr : ∀ id : Nat, removes c a = some (id : Int) →
      k.nattch id = 0 ∨ ¬ Holds k p s id ∧ ¬ Awaits s id) : Knows p x s k' := by
  refine ⟨h.1.of_serve hs (fun id hid => (hr id hid).imp_right And.left) (mapOf_served hq hs), ?_⟩
  intro i id key hx
  obtain ⟨hcr, hid, hlt, hkey⟩ := h.2 i id key hx
  refine ⟨hcr, hid, Nat.lt_of_lt_of_le hlt (next_served hs), hkey.served hlt hs fun hrem => ?_⟩
  exact (hr id hrem).resolve_right fun hn => hn.2 ⟨i, hcr, hid⟩

/-- A slot changes to a handle that is not live, or that was and has the same key and address. -/
theorem Kept.setSlot (h : Kept p s k) {i : Nat} {x : Handle}
    (hx : x.Live → (s.shmem_array i).Live ∧ x.key = (s.shmem_array i).key ∧
      x.mem = (s.shmem_array i).mem) : Kept p (s.setSlot i x) k := by
  have hold : ∀ j, ((s.setSlot i x).shmem_array j).Live → (s.shmem_array j).Live ∧
      ((s.setSlot i x).shmem_array j).key = (s.shmem_array j).key ∧
      ((s.setSlot i x).shmem_array j).mem = (s.shmem_array j).mem := fun j hj => by
    by_cases hji : j = i
    · subst hji
      rw [Process.setSlot_self] at hj ⊢
      exact hx hj
    · rw [s.setSlot_of_ne hji x] at hj ⊢
      exact ⟨hj, rfl, rfl⟩
  refine ⟨h.wf, fun j hj => ?_, fun j j' hj hj' he => ?_⟩
  · obtain ⟨hl, hk, hm⟩ := hold j hj
    rw [hk, hm]
    exact h.mapped j hl
  · obtain ⟨hl, -, hm⟩ := hold j hj
    obtain ⟨hl', -, hm'⟩ := hold j' hj'
    exact h.apart j j' hl hl' (hm.symm.trans (he.trans hm'))

theorem Kept.drop (h : Kept p s k) {i : Nat} {x : Handle} (hx : ¬ x.Live) :
    Kept p (s.setSlot i x) k :=
  h.setSlot fun hl => absurd hl hx

theorem Knows.none (h : Kept p s k) : Knows p none s k := ⟨h, nofun⟩

/-- The slot `i`, with a key and an address of its own, becomes live. -/
theorem Kept.attach (h : Kept p s k) {i id : Nat} {x : Handle}
    (hfree : k.mapOf p x.mem = Option.none) (hn : k.Names x.key id) :
    Kept p (s.setSlot i x) (k.attach p x.mem id) := by
  have hold : ∀ j, j ≠ i → ((s.setSlot i x).shmem_array j).Live →
      (s.shmem_array j).Live ∧ (s.shmem_array j).mem ≠ x.mem := fun j hji hj => by
    rw [s.setSlot_of_ne hji x] at hj
    obtain ⟨id', hid, -⟩ := h.mapped j hj
    exact ⟨hj, fun he => by rw [he, hfree] at hid; cases hid⟩
  refine ⟨⟨h.wf.free, h.wf.unique⟩, fun j hj => ?_, fun j j' hj hj' he => ?_⟩
  · by_cases hji : j = i
    · subst hji
      rw [Process.setSlot_self]
      exact ⟨id, mapOf_attach_self, hn⟩
    · obtain ⟨hl, hne⟩ := hold j hji hj
      rw [s.setSlot_of_ne hji x]
      obtain ⟨id', hid, hn'⟩ := h.mapped j hl
      refine ⟨id', ?_, hn'⟩
      rw [mapOf_attach_of_ne fun e => hne (Prod.mk.inj e).2]
      exact hid
  · by_cases hji : j = i <;> by_cases hji' : j' = i
    · rw [hji, hji']
    · rw [hji, Process.setSlot_self, s.setSlot_of_ne hji' x] at he
      exact absurd he.symm (hold j' hji' hj').2
    · rw [hji', Process.setSlot_self, s.setSlot_of_ne hji x] at he
      exact absurd he (hold j hji hj).2
    · rw [s.setSlot_of_ne hji x, s.setSlot_of_ne hji' x] at he
      exact h.apart j j' (hold j hji hj).1 (hold j' hji' hj').1 he

/-- The mapping of the slot `i` goes, and the slot is not live any more. -/
theorem Kept.detach (h : Kept p s k) {i id : Nat} {x : Handle} (hlive : (s.shmem_array i).Live)
    (hx : ¬ x.Live) (hw : (k.detach p (s.shmem_array i).mem id).Wf) :
    Kept p (s.setSlot i x) (k.detach p (s.shmem_array i).mem id) := by
  have hold : ∀ j, ((s.setSlot i x).shmem_array j).Live → j ≠ i ∧ (s.shmem_array j).Live := by
    intro j hj
    by_cases hji : j = i
    · rw [hji, Process.setSlot_self] at hj
      exact absurd hj hx
    · rw [s.setSlot_of_ne hji x] at hj
      exact ⟨hji, hj⟩
  refine ⟨hw, fun j hj => ?_, fun j j' hj hj' he => ?_⟩
  · obtain ⟨hji, hl⟩ := hold j hj
    rw [s.setSlot_of_ne hji x]
    obtain ⟨id', hid, hn⟩ := h.mapped j hl
    refine ⟨id', ?_, detach_names.mpr hn⟩
    rw [mapOf_detach fun e => hji (h.apart j i hl hlive (Prod.mk.inj e).2)]
    exact hid
  · obtain ⟨hji, hl⟩ := hold j hj
    obtain ⟨hji', hl'⟩ := hold j' hj'
    rw [s.setSlot_of_ne hji x, s.setSlot_of_ne hji' x] at he
    exact h.apart j j' hl hl' he

/-! ### The calls on shared memory -/

theorem outline_onSlot {i : Nat} {f : Handle → Handle} {Q : PUnit → Process → Ipc P → Prop} :
    Outline (Knows p) (Serves p) Q (onSlot i f) s k ↔ Q ⟨⟩ (s.setSlot i (f (s.shmem_array i))) k :=
  Iff.rfl

omit [DecidableEq P] in
theorem names_lt {key : Int} {id : Nat} (hw : k.Wf) (h : k.Names key id) : id < k.next :=
  Nat.lt_of_not_le fun hle => by
    have hn := hw.free id hle
    rw [h] at hn
    cases hn

/-- `shmget` answers with the segment of the key. -/
theorem shmget_names {key size : Int} {id : Nat} (hw : k.Wf)
    (h : serve p (.shmget key size) (.ok id) k = some k') : k'.Names key id := by
  simp only [serve] at h
  split_ifs at h with h₁ h₂
  · obtain rfl := Option.some.inj h
    exact h₁
  · obtain rfl := Option.some.inj h
    exact (create_names hw).mpr (.inr ⟨h₂.1, rfl⟩)

theorem shmget_again_outline (h : Kept p s k) (key size : Int) (n : Nat) :
    Outline (Knows p) (Serves p) (fun r s' k => s' = s ∧ Kept p s k ∧
      ∀ id, r = .ok id → id < k.next ∧ k.Keyed id key) (shmget_again key size n) s k := by
  have hok : ∀ {a : Call.Answer (.shmget key size)} {k₁ k₂ : Ipc P}, Knows p none s k₁ →
      Serves p s (.shmget key size) a k₁ k₂ →
      Kept p s k₂ ∧ ∀ id, a = .ok id → id < k₂.next ∧ k₂.Keyed id key := by
    intro a k₁ k₂ h₁ h₂
    refine ⟨h₁.1.serves h₂ rfl, fun id hid => ?_⟩
    subst hid
    have hn := shmget_names h₁.1.wf h₂.1
    refine ⟨names_lt (h₁.1.wf.served h₂.1) hn, fun seg hseg => ?_⟩
    rw [hn] at hseg
    exact (congrArg IpcSegment.key (Option.some.inj hseg)).symm
  induction n generalizing k with
  | zero => exact .ask none (.none h) fun a k₁ k₂ h₁ h₂ => ⟨rfl, hok h₁ h₂⟩
  | succ n ih =>
      unfold shmget_again
      rw [outline_bind]
      refine .ask none (.none h) fun a k₁ k₂ h₁ h₂ => ?_
      obtain ⟨hk, hid⟩ := hok h₁ h₂
      rcases a with e | id
      · exact .ite (fun _ => ih hk) fun _ => ⟨rfl, hk, fun _ he => by cases he⟩
      · exact ⟨rfl, hk, hid⟩

theorem not_live_of_state {x : Handle} (h : x.state = .error ∨ x.state = .detached ∨
    x.state = .created ∨ x.state = .destroyed ∨ x.magic ≠ SHMEM_MAGIC) : ¬ x.Live := by
  rintro ⟨hm, hst⟩
  rcases h with h | h | h | h | h
  all_goals first | exact h hm | (rw [h] at hst; exact hst.elim nofun nofun)

theorem shmem_attach_outline {i id : Nat} {key : Int} (h : Knows p (some (i, id, key)) s k)
    (size : Nat) :
    Outline (Knows p) (Serves p) (fun _ s k => Kept p s k) (shmem_attach i key size id) s k := by
  unfold shmem_attach
  rw [outline_bind]
  refine .ask _ h fun a k₁ k₂ h₁ h₂ => ?_
  obtain ⟨hcr, -, -, hkey⟩ := h₁.2 i id key rfl
  have hdead : ∀ x : Handle, x.state = .created → ¬ x.Live := fun x hx =>
    not_live_of_state (.inr (.inr (.inl hx)))
  rcases a with e | m
  · obtain rfl := Option.some.inj h₂.1
    rw [outline_bind, outline_onSlot, outline_bind]
    refine .ask none (.none (h₁.1.drop (hdead _ hcr))) fun a k₃ k₄ h₃ h₄ => ?_
    rw [outline_bind, outline_onSlot]
    exact (h₃.1.serves h₄ rfl).drop (not_live_of_state (.inl rfl))
  · obtain ⟨hs, -⟩ := h₂
    simp only [serve] at hs
    split_ifs at hs with hfree
    obtain rfl := Option.some.inj hs
    rw [seg_natCast, Int.toNat_natCast] at *
    obtain ⟨seg, hseg⟩ := Option.ne_none_iff_exists'.mp hfree.1
    have hn : k₁.Names key id := by
      unfold Names
      rw [hseg, ← hkey seg hseg]
    have hk : Kept p { s with uuid := Function.update s.uuid m.addr m.uuid } k₁ :=
      ⟨h₁.1.wf, h₁.1.mapped, h₁.1.apart⟩
    rw [outline_bind, outline_modify, outline_bind, outline_onSlot, outline_bind, outline_onSlot,
      outline_pure]
    simp only [Process.setSlot_setSlot, Process.setSlot_self]
    refine hk.attach ?_ ?_
    · exact hfree.2
    · exact hn

theorem shmem_create_outline (h : Kept p s k) {i : Nat} (hi : (s.shmem_array i).magic ≠ SHMEM_MAGIC)
    (key : Int) (size : Nat) :
    Outline (Knows p) (Serves p) (fun _ s k => Kept p s k) (shmem_create i key size) s k := by
  unfold shmem_create
  rw [outline_bind]
  refine .ask none (.none h) fun pid k₁ k₂ h₁ h₂ => ?_
  rw [outline_bind, outline_onSlot, outline_bind]
  have hdead : ∀ x : Handle, x.magic = (s.shmem_array i).magic → ¬ x.Live := fun x hx =>
    not_live_of_state (.inr (.inr (.inr (.inr (hx ▸ hi)))))
  have hk₂ := (h₁.1.serves h₂ rfl).drop (i := i)
    (hdead { s.shmem_array i with owner_pid := pid, error_code := 0 } rfl)
  refine (shmget_again_outline hk₂ key _ 5).mono ?_
  rintro (e | id) s₁ k₃ ⟨rfl, hk, hid⟩
  · rw [outline_bind, outline_onSlot]
    exact hk.drop (hdead _ (by rw [Process.setSlot_self]))
  · obtain ⟨hlt, hkey⟩ := hid id rfl
    rw [outline_bind, outline_onSlot, outline_bind]
    simp only [Process.setSlot_setSlot, Process.setSlot_self]
    -- from here to `shmat` the slot awaits its segment
    refine .ask (some (i, id, key)) ⟨?_, fun i' id' key' he => ?_⟩ fun _ k₄ k₅ h₄ h₅ => ?_
    · have hk' := hk.drop (i := i) (hdead { s.shmem_array i with
        owner_pid := pid, error_code := 0, id := (id : Int), state := .created } rfl)
      rwa [Process.setSlot_setSlot] at hk'
    · cases he
      exact ⟨by rw [Process.setSlot_self], by rw [Process.setSlot_self], hlt, hkey⟩
    rw [outline_bind]
    refine .ask _ (h₄.serves h₅ rfl rfl) fun euid k₆ k₇ h₆ h₇ => ?_
    refine .ite (fun _ => ?_) fun _ => shmem_attach_outline (h₆.serves h₇ rfl rfl) size
    rw [outline_bind]
    refine .ask _ (h₆.serves h₇ rfl rfl) fun _ k₈ k₉ h₈ h₉ => ?_
    exact shmem_attach_outline (h₈.serves h₉ rfl rfl) size

theorem rtapi_shmem_new_outline (h : Kept p s k) (key module_id : Int) (size : Nat) :
    Outline (Knows p) (Serves p) (fun _ s k => Kept p s k) (rtapi_shmem_new key module_id size)
      s k := by
  unfold rtapi_shmem_new
  refine .ite (fun _ => h) fun _ => .ite (fun _ => h) fun _ => ?_
  rw [outline_bind, outline_get]
  rcases hs : scan s.shmem_array key MAX_SHM 0 none with i | _ | i
  · rw [outline_bind, outline_onSlot]
    exact h.setSlot fun hl => ⟨hl, rfl, rfl⟩
  · exact h
  · rcases (scan_miss hs).2 i rfl with hn | ⟨-, hv⟩
    · cases hn
    · exact shmem_create_outline h hv key size

theorem rtapi_shmem_getptr_outline (h : Kept p s k) (handle : Int) :
    Outline (Knows p) (Serves p) (fun _ s k => Kept p s k) (rtapi_shmem_getptr handle) s k := by
  unfold rtapi_shmem_getptr
  refine .ite (fun _ => h) fun _ => ?_
  rw [outline_bind, outline_get]
  exact .ite (fun _ => h) fun _ => .ite (fun _ => h) fun _ => h

/-- After it the slot is not live. -/
theorem shmem_detach_outline (h : Kept p s k) {i : Nat}
    (hm : (s.shmem_array i).magic = SHMEM_MAGIC) :
    Outline (Knows p) (Serves p) (fun _ s k => Kept p s k ∧ ¬ (s.shmem_array i).Live)
      (shmem_detach i) s k := by
  unfold shmem_detach
  rw [outline_bind, outline_get]
  refine .ite (fun hst => ?_) fun hst => ⟨h, fun hl => hst hl.2⟩
  rw [outline_bind]
  refine .ask none (.none h) fun a k₁ k₂ h₁ h₂ => ?_
  have hdead : ∀ x : Handle, x.state = .detached → ¬ x.Live := fun x hx =>
    not_live_of_state (.inr (.inl hx))
  rcases a with e | u
  · obtain rfl := Option.some.inj h₂.1
    rw [outline_bind, outline_onSlot]
    exact ⟨h₁.1.drop (hdead _ rfl), by rw [Process.setSlot_self]; exact hdead _ rfl⟩
  · rw [outline_bind, outline_onSlot]
    obtain ⟨id, -, hk⟩ := Option.map_eq_some_iff.mp h₂.1
    have hw := h₁.1.wf.served h₂.1
    subst hk
    exact ⟨h₁.1.detach ⟨hm, hst⟩ (hdead _ rfl) hw, by
      rw [Process.setSlot_self]; exact hdead _ rfl⟩

theorem shmem_destroy_outline (h : Kept p s k) {i : Nat} (hi : ¬ (s.shmem_array i).Live) :
    Outline (Knows p) (Serves p) (fun _ s k => Kept p s k) (shmem_destroy i) s k := by
  unfold shmem_destroy
  rw [outline_bind, outline_get, outline_bind]
  refine .ask none (.none h) fun d k₁ k₂ h₁ h₂ => ?_
  have hk₂ := h₁.1.serves h₂ rfl
  rcases d with e | nattch
  · rw [outline_bind, outline_onSlot]
    exact hk₂.drop hi
  · refine .ite (fun _ => ?_) fun _ => hk₂
    rw [outline_bind]
    refine .ask none (.none hk₂) fun r k₃ k₄ h₃ h₄ => ?_
    have hk₄ := h₃.1.serves h₄ rfl
    have hdead : ∀ x : Handle, x.state = .destroyed → ¬ x.Live := fun x hx =>
      not_live_of_state (.inr (.inr (.inr (.inl hx))))
    rcases r with e | u
    · rw [outline_bind, outline_onSlot]
      exact hk₄.drop (hdead _ rfl)
    · rw [outline_bind, outline_onSlot]
      exact hk₄.drop (hdead _ rfl)

theorem rtapi_shmem_delete_outline (h : Kept p s k) (handle module_id : Int) :
    Outline (Knows p) (Serves p) (fun _ s k => Kept p s k) (rtapi_shmem_delete handle module_id)
      s k := by
  unfold rtapi_shmem_delete
  refine .ite (fun _ => h) fun _ => ?_
  rw [outline_bind, outline_get]
  refine .ite (fun _ => h) fun hm => ?_
  rw [outline_bind, outline_onSlot]
  have hk := h.setSlot (i := handle.toNat) (x := { s.shmem_array handle.toNat with
    count := toInt32 ((s.shmem_array handle.toNat).count - 1) }) fun hl => ⟨hl, rfl, rfl⟩
  refine .ite (fun _ => hk) fun _ => ?_
  rw [outline_bind]
  refine (shmem_detach_outline hk (by rw [Process.setSlot_self]; exact not_not.mp hm)).mono ?_
  rintro r1 s₁ k₁ ⟨hk₁, hl₁⟩
  rw [outline_bind]
  refine (shmem_destroy_outline hk₁ hl₁).mono fun r2 s₂ k₂ hk₂ => ?_
  rw [outline_bind, outline_onSlot]
  have hk₃ := hk₂.drop (i := handle.toNat) (x := { s₂.shmem_array handle.toNat with magic := 0 })
    fun hl => absurd hl.1 (show (0 : Int) ≠ SHMEM_MAGIC by decide)
  exact .ite (fun _ => hk₃) fun _ => hk₃

theorem ShmOp.run_outline (h : Kept p s k) (op : ShmOp) :
    Outline (Knows p) (Serves p) (fun _ s k => Kept p s k) op.run s k := by
  cases op with
  | new key module_id size => exact rtapi_shmem_new_outline h key module_id size
  | getptr handle =>
      exact outline_bind.mpr ((rtapi_shmem_getptr_outline h handle).mono fun _ _ _ h => h)
  | delete handle module_id => exact rtapi_shmem_delete_outline h handle module_id

end

/-! ### All processes together -/

/-- Each process is in a proof outline. -/
def Inv (w : World P) : Prop :=
  ∀ p, (w.prog p).Outline (Knows p) (Serves p) (fun _ s k => Knows p none s k) w.ipc

section
variable {w w' : World P}

theorem Inv.kept (h : w.Inv) (p : P) : Kept p (w.state p) w.ipc := by
  obtain ⟨x, hx⟩ := (h p).now
  exact hx.1

theorem Inv.oneSegment (h : w.Inv) : w.OneSegment := by
  intro p q i j hi hj hkey
  obtain ⟨id, hid, hn⟩ := (h.kept p).mapped i hi
  obtain ⟨id', hid', hn'⟩ := (h.kept q).mapped j hj
  obtain rfl := (h.kept p).wf.unique _ id id' hn (hkey ▸ hn')
  exact ⟨id, hid, hid'⟩

theorem Inv.step {a : Act P} (h : w.Inv) (hc : w.Careful a) (ha : step a w = some w') : w'.Inv := by
  intro q
  cases a with
  | call p op =>
      simp only [World.step] at ha
      cases hp : w.prog p with rw [hp] at ha
      | ask s c f => cases ha
      | ret r s =>
          cases ha
          by_cases hq : q = p
          · subst hq
            have hk := h q
            rw [hp] at hk
            show (Function.update w.prog q (op.run s) q).Outline _ _ _ _
            rw [Function.update_self]
            exact (ShmOp.run_outline hk.1 op).mono fun _ _ _ => Knows.none
          · show (Function.update w.prog p (op.run s) q).Outline _ _ _ _
            rw [Function.update_of_ne hq]
            exact h q
  | answer p o =>
      simp only [World.step] at ha
      simp only [Careful] at hc
      cases hp : w.prog p with rw [hp] at ha hc
      | ret r s => cases ha
      | ask s c f =>
          obtain ⟨k, hk, rfl⟩ := Option.map_eq_some_iff.mp ha
          by_cases hq : q = p
          · subst hq
            have hnow := h q
            rw [hp] at hnow
            obtain ⟨x, hx, hnext⟩ := hnow
            have hs : w.state q = s := by
              unfold World.state
              rw [hp]
              rfl
            show (Function.update w.prog q (f (o c)) q).Outline _ _ _ _
            rw [Function.update_self]
            refine hnext (o c) w.ipc k hx ⟨hk, fun id hid => (hc id hid).imp_right fun hn => ?_⟩
            exact hs ▸ hn.1 q
          · show (Function.update w.prog p (f (o c)) q).Outline _ _ _ _
            rw [Function.update_of_ne hq]
            refine (h q).stable fun x hx => hx.stable hq hk fun id hid => ?_
            exact (hc id hid).imp_right fun hn => ⟨hn.1 q, hn.2 q hq⟩

/-- Processes before their first call, and any segments. -/
structure Fresh (w : World P) : Prop where
  prog : ∀ p, ∃ r, w.prog p = .ret r {}
  wf : w.ipc.Wf

theorem Fresh.inv (h : w.Fresh) : w.Inv := by
  intro p
  obtain ⟨r, hr⟩ := h.prog p
  have hdead : ∀ i, ¬ (({} : Process).shmem_array i).Live := fun i hl =>
    absurd hl.1 (show (0 : Int) ≠ SHMEM_MAGIC by decide)
  rw [hr]
  exact Knows.none ⟨h.wf, fun i hi => absurd hi (hdead i), fun i _ hi => absurd hi (hdead i)⟩

/-- **One segment for a key**, in every state of every run whose removals are careful. -/
theorem one_segment (h₀ : w.Fresh) (h : Reached step Careful w w') : w'.OneSegment :=
  (h.invariant h₀.inv fun _ _ _ hi hc ha => hi.step hc ha).oneSegment

end

/-! ### Three processes -/

/-- What the system calls of one process answer; the others are as in `plain_answers`. -/
def reply (id nattch : Nat) (m : Mapping) : (c : Call) → c.Answer
  | .shmget _ _ => .ok id
  | .shm_stat _ => .ok nattch
  | .shmat _ => .ok m
  | c => plain_answers 0 c

def page : Mapping := ⟨4096, page_ne, 0⟩

/-- The process opens the key 5: the segment `id`, which had `nattch` attached. -/
def opens (p id nattch : Nat) : List (Act Nat) :=
  .call p (.new 5 0 16) :: List.replicate 5 (.answer p (reply id nattch page))

/-- It closes the handle, up to the answer to `IPC_STAT`. -/
def closes (p nattch : Nat) : List (Act Nat) :=
  .call p (.delete 0 0) :: List.replicate 2 (.answer p (reply 0 nattch page))

/-- The removal of a segment with nobody attached. -/
def unattached (w : World Nat) : Act Nat → Bool
  | .call _ _ => true
  | .answer p o =>
      match w.prog p with
      | .ret .. => true
      | .ask _ c _ => (removes c (o c)).all fun id => w.ipc.nattch id.toNat = 0

theorem careful_of_unattached {w : World Nat} {a : Act Nat} (h : unattached w a = true) :
    w.Careful a := by
  cases a with
  | call p op => trivial
  | answer p o =>
      simp only [unattached] at h
      simp only [Careful]
      cases hp : w.prog p with rw [hp] at h
      | ret r s => trivial
      | ask s c f =>
          intro id hid
          replace h : (removes c (o c)).all (fun id => w.ipc.nattch id.toNat = 0) = true := h
          rw [hid] at h
          exact .inl (by simpa using h)

/-- Where a run from the start ends. -/
def ends (as : List (Act Nat)) : World Nat := (acted step as {}).getD {}

theorem acted_ends {as : List (Act Nat)} (h : (acted step as {}).isSome) :
    acted step as {} = some (ends as) := by
  obtain ⟨w, hw⟩ := Option.isSome_iff_exists.mp h
  unfold ends
  rw [hw]
  rfl

/-- Two processes share a segment, and the last of them removes it; two others share the next. -/
def sharedTwice : List (Act Nat) :=
  opens 0 0 0 ++ opens 1 0 1 ++ closes 0 1 ++ closes 1 0 ++ [.answer 1 (reply 0 0 page)] ++
    opens 2 1 0 ++ opens 0 1 1

theorem start_fresh : ({} : World Nat).Fresh :=
  ⟨fun _ => ⟨0, rfl⟩, fun _ _ => rfl, fun _ _ _ h => by cases h⟩

theorem one_segment_sample : acted step sharedTwice {} = some (ends sharedTwice) ∧
    (ends sharedTwice).OneSegment ∧ (ends sharedTwice).ipc.mapOf 0 4096 = some 1 ∧
    (ends sharedTwice).ipc.mapOf 2 4096 = some 1 := by
  have hw := acted_ends (show (acted step sharedTwice {}).isSome by decide +kernel)
  have hmeets : Meets step (fun w a => unattached w a = true) sharedTwice {} := by decide +kernel
  exact ⟨hw, one_segment start_fresh (.of_acted hw (hmeets.mono fun _ _ => careful_of_unattached)),
    by decide +kernel, by decide +kernel⟩

/-- The segment is attached again between the count and the removal, and its key is used once more. -/
def removedInUse : List (Act Nat) :=
  opens 0 0 0 ++ closes 0 0 ++ opens 1 0 0 ++ [.answer 0 (reply 0 0 page)] ++ opens 2 1 0

theorem removedInUse_split : ¬ ∀ w : World Nat,
    Reached step (fun _ _ => True) {} w → w.OneSegment := by
  intro h
  have hw := acted_ends (show (acted step removedInUse {}).isSome by decide +kernel)
  obtain ⟨id, h₁, h₂⟩ := h _ (.of_acted hw (by decide +kernel)) 1 2 0 0
    ⟨by decide +kernel, .inl (by decide +kernel)⟩ ⟨by decide +kernel, .inl (by decide +kernel)⟩
    (by decide +kernel)
  have h0 : some 0 = some id := .trans (by decide +kernel) h₁
  have h1 : some 1 = some id := .trans (by decide +kernel) h₂
  cases h0
  cases h1

end World

end RTS.Uspace

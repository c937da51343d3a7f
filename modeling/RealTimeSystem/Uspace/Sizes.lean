import RealTimeSystem.Uspace.Handles

/-!
# RTAPI — what a history of calls leaves behind a handle

The segment behind each handle is kept beside the table, with the size that each segment has.

* **`mapping_as_large`**: a handle is of a segment as large as asked for, as long as no size is
  narrowed on its way to `shmget` and no key is opened again with a larger size.
* **`extra_delete`**: one more `rtapi_shmem_delete` of a handle that was released is refused, or
  takes a reference from whoever holds the slot now.
-/

namespace RTS.Uspace

open RTS.Support

/-! ### Sizes -/

/-- The segment that was mapped last. -/
def segment : List (Asked Process Call Call.Answer) → Option Int
  | [] => none
  | ⟨_, .shmat id, .ok _⟩ :: _ => some id
  | _ :: l => segment l

/-- `shmget` with a positive size gives a segment of that size at least; `bytes` are the sizes of
the segments. -/
def Call.Granted (bytes : Int → Nat) : (c : Call) → c.Answer → Prop
  | .shmget _ n, .ok id => 0 < n → n ≤ bytes id
  | _, _ => True

/-- All answers were so. -/
def Granted (bytes : Int → Nat) : List (Asked Process Call Call.Answer) → Prop
  | [] => True
  | x :: l => x.call.Granted bytes x.answer ∧ Granted bytes l

/-- For each slot, the segment that was mapped when it last became valid. -/
def ShmOp.segments (seg : Nat → Int) (s : Process) (l : List (Asked Process Call Call.Answer))
    (r : Int) : ShmOp → Nat → Int
  | .new _ _ _ =>
      if r < 0 ∨ s.Open r then seg else Function.update seg r.toNat ((segment l).getD 0)
  | _ => seg

/-- A size that the call can vouch for: that of the open handle of the key, and else an `int`. -/
def ShmOp.Fits (s : Process) : ShmOp → Prop
  | .new key _ size =>
      (∀ i < MAX_SHM, s.Valid i → (s.shmem_array i).key = key → size ≤ (s.shmem_array i).size) ∧
        ((∀ i < MAX_SHM, s.Valid i → (s.shmem_array i).key ≠ key) → size < 2 ^ 31)
  | _ => True

/-- A sequence of calls from zero-filled handles that all are `F`, with the segments behind the
handles. -/
inductive SizedRun (bytes : Int → Nat) (F : Process → ShmOp → Prop) : Process → (Nat → Int) → Prop
  | start : SizedRun bytes F {} fun _ => 0
  | step {s s' : Process} {seg : Nat → Int} {l : List (Asked Process Call Call.Answer)} {r : Int}
      (op : ShmOp) : SizedRun bytes F s seg → F s op → Does op.run s l r s' → Granted bytes l →
      SizedRun bytes F s' (op.segments seg s l r)

variable {s s' : Process} {l : List (Asked Process Call Call.Answer)} {bytes : Int → Nat}

theorem Granted.of_mem {x : Asked Process Call Call.Answer} (h : Granted bytes l) (hx : x ∈ l) :
    x.call.Granted bytes x.answer := by
  induction l with
  | nil => cases hx
  | cons y l ih =>
      rcases List.mem_cons.mp hx with rfl | hx
      · exact h.1
      · exact ih h.2 hx

/-- The slot `i` was opened with a size, for a segment as large as was asked of `shmget`. -/
def Backed (bytes : Int → Nat) (i : Nat) (size : Nat)
    (l : List (Asked Process Call Call.Answer)) (r : Int) (s : Process) : Prop :=
  r = i ∧ (s.shmem_array i).size = size ∧ ∃ id, segment l = some id ∧
    (Granted bytes l → 0 < toInt32 size → toInt32 size ≤ bytes id)

theorem shmem_create_size (bytes : Int → Nat) (i : Nat) (key : Int) (size : Nat) :
    Every (shmem_create i key size) s l fun l' r s' => r < 0 ∨ Backed bytes i size l' r s' := by
  refine (shmem_create_asks i key size).mono fun l' r s' h => ?_
  cases h with
  | ungot pid e hf => exact .inl e.neg
  | unmapped pid id e a p q q' hi hg => exact .inl e.neg
  | active pid id m p q hi hg =>
      refine .inr ⟨rfl, by rw [Process.setSlot_self], id, rfl, fun hgrant => ?_⟩
      exact hgrant.2.of_mem (List.mem_append_left l hg)

/-- A handle that was not open is backed. -/
theorem rtapi_shmem_new_size (bytes : Int → Nat) (key module_id : Int) (size : Nat) :
    Every (rtapi_shmem_new key module_id size) s l fun l' r s' =>
      ∀ i : Nat, r = i → ¬ s.Valid i → 0 < size ∧ Backed bytes i size l' r s' := by
  unfold rtapi_shmem_new
  refine .ite (fun _ i hr => ?_) fun _ => .ite (fun _ i hr => ?_) fun hsize => ?_
  · exact absurd (show -EINVAL = (i : Int) from hr) (by have : EINVAL = 22 := rfl; omega)
  · exact absurd (show -EINVAL = (i : Int) from hr) (by have : EINVAL = 22 := rfl; omega)
  rw [every_bind, every_get]
  rcases hs : scan s.shmem_array key MAX_SHM 0 none with j | _ | j
  · intro i hr hv
    have hji : i = j := by
      have : (j : Int) = i := hr
      omega
    exact absurd (hji ▸ (scan_hit hs).2.1) hv
  · intro i hr
    exact absurd (show -ENOMEM = (i : Int) from hr) (by have : ENOMEM = 12 := rfl; omega)
  · refine (shmem_create_size bytes j key size).mono fun l' r s' h i hr _ => ?_
    rcases h with h | h
    · omega
    · have hji : j = i := by
        have := h.1
        omega
      exact ⟨by omega, hji ▸ h⟩

/-! ### The mapping of a handle -/

/-- The open handles are mapped. -/
def Process.Mapped (s : Process) : Prop := ∀ i, s.Valid i → (s.shmem_array i).state = .active

theorem not_valid_start (i : Nat) : ¬ ({} : Process).Valid i := by
  show (0 : Int) ≠ SHMEM_MAGIC
  decide

theorem getptr_unchanged (handle : Int) :
    Every (ShmOp.getptr handle).run s l fun _ _ s' => s' = s :=
  every_bind.mpr ((rtapi_shmem_getptr_spec handle).mono fun _ _ _ ⟨h, _⟩ => h)

namespace Process.Mapped

/-- Only the slot `i` may have changed. -/
theorem set {i : Nat} (h : s.Mapped) (hs : ∀ j, j ≠ i → s'.shmem_array j = s.shmem_array j)
    (hi : s'.Valid i → (s'.shmem_array i).state = .active) : s'.Mapped := by
  intro j hj
  by_cases hji : j = i
  · exact hji ▸ hi (hji ▸ hj)
  · unfold Process.Valid at hj
    rw [hs j hji] at hj ⊢
    exact h j hj

theorem count {i : Nat} (h : s.Mapped) (hv : s.Valid i) (n : Int) :
    (s.setSlot i { s.shmem_array i with count := n }).Mapped := by
  refine h.set (fun j hj => Process.setSlot_of_ne _ hj _) fun _ => ?_
  rw [Process.setSlot_self]
  exact h i hv

theorem step (h : s.Mapped) (op : ShmOp) {r : Int} (hd : Does op.run s l r s') : s'.Mapped := by
  cases op with
  | new key module_id size =>
      rcases hd.of_every (rtapi_shmem_new_spec key module_id size) with
        ⟨-, rfl, -⟩ | ⟨i, -, -, hv, -, -, rfl⟩ | ⟨i, -, -, -, hs, -, ⟨-, hv', -⟩ | ⟨m, -, -, -, hslot⟩⟩
      · exact h
      · exact h.count hv _
      · exact h.set hs.others fun hv => absurd hv hv'
      · exact h.set hs.others fun _ => by rw [hslot]
  | getptr handle =>
      obtain rfl := hd.of_every (getptr_unchanged handle)
      exact h
  | delete handle module_id =>
      rcases hd.of_every (rtapi_shmem_delete_spec handle module_id h) with
        ⟨rfl, -, -⟩ | ⟨i, -, -, hv, ⟨-, -, rfl⟩ | ⟨-, hs, hv', -⟩⟩
      · exact h
      · exact h.count hv _
      · exact h.set hs.others fun hv => absurd hv hv'

end Process.Mapped

/-- The segments of the open handles are as large as recorded. -/
def Sized (bytes : Int → Nat) (s : Process) (seg : Nat → Int) : Prop :=
  ∀ i, s.Valid i → (s.shmem_array i).size ≤ bytes (seg i)

namespace Sized

variable {seg seg' : Nat → Int}

/-- Only the slot `i` and its segment may have changed. -/
theorem set {i : Nat} (h : Sized bytes s seg) (hs : ∀ j, j ≠ i → s'.shmem_array j = s.shmem_array j)
    (hseg : ∀ j, j ≠ i → seg' j = seg j)
    (hi : s'.Valid i → (s'.shmem_array i).size ≤ bytes (seg' i)) : Sized bytes s' seg' := by
  intro j hj
  by_cases hji : j = i
  · exact hji ▸ hi (hji ▸ hj)
  · unfold Process.Valid at hj
    rw [hs j hji] at hj ⊢
    rw [hseg j hji]
    exact h j hj

/-- A reference is counted. -/
theorem count {i : Nat} (h : Sized bytes s seg) (hv : s.Valid i) (n : Int) :
    Sized bytes (s.setSlot i { s.shmem_array i with count := n }) seg := by
  refine h.set (fun j hj => Process.setSlot_of_ne _ hj _) (fun _ _ => rfl) fun _ => ?_
  rw [Process.setSlot_self]
  exact h i hv

/-- `rtapi_shmem_new` with a size that fits, and what it returns. -/
theorem new (h : Sized bytes s seg) {key module_id : Int} {size : Nat}
    (hf : (ShmOp.new key module_id size).Fits s) :
    Every (rtapi_shmem_new key module_id size) s [] fun l r s' => Granted bytes l →
      Sized bytes s' ((ShmOp.new key module_id size).segments seg s l r) ∧
        (0 ≤ r → size ≤ bytes ((ShmOp.new key module_id size).segments seg s l r r.toNat)) := by
  refine ((rtapi_shmem_new_spec key module_id size).and
    (rtapi_shmem_new_size bytes key module_id size)).mono fun l r s' ⟨hout, hback⟩ hg => ?_
  rcases hout with ⟨hr, rfl, rfl⟩ | ⟨i, hi, rfl, hv, hk, rfl, rfl⟩ | ⟨i, hi, hv, hmiss, hs, -, hout⟩
  · simp only [ShmOp.segments, if_pos (Or.inl hr : r < 0 ∨ s'.Open r)]
    exact ⟨h, fun h0 => absurd hr (by omega)⟩
  · -- the handle is open: its recorded size decides
    have hopen : s.Open i := ⟨by omega, by omega, hv⟩
    simp only [ShmOp.segments, if_pos (Or.inr hopen : (i : Int) < 0 ∨ s.Open i)]
    exact ⟨h.count hv _, fun _ => Nat.le_trans (hf.1 i hi hv hk) (h i hv)⟩
  · have hopen : ¬ s.Open i := fun ho => hv (by simpa using ho.2.2)
    rcases hout with ⟨hr, hv', -⟩ | ⟨m, rfl, -, -, -⟩
    · simp only [ShmOp.segments, if_pos (Or.inl hr : r < 0 ∨ s.Open r)]
      exact ⟨h.set hs.others (fun _ _ => rfl) fun hv => absurd hv hv', fun h0 => absurd hr (by omega)⟩
    · obtain ⟨hpos, -, hsz, id, hid, hle⟩ := hback i rfl hv
      have h32 : toInt32 size = size := toInt32_eq (by omega) (by have := hf.2 hmiss; omega)
      have hle : size ≤ bytes id := by
        have := hle hg (by omega)
        omega
      have hnot : ¬ ((i : Int) < 0 ∨ s.Open i) := fun h => h.elim (by omega) hopen
      simp only [ShmOp.segments, if_neg hnot, hid, Option.getD_some, Int.toNat_natCast,
        Function.update_self]
      refine ⟨h.set hs.others (fun j hj => Function.update_of_ne hj _ _) fun _ => ?_, fun _ => hle⟩
      rw [Function.update_self, hsz]
      exact hle

/-- One call that fits. -/
theorem step (h : Sized bytes s seg) (ha : s.Mapped) (op : ShmOp) (hf : op.Fits s) {r : Int}
    (hd : Does op.run s l r s') (hg : Granted bytes l) :
    Sized bytes s' (op.segments seg s l r) := by
  cases op with
  | new key module_id size => exact (hd.of_every (h.new hf) hg).1
  | getptr handle =>
      obtain rfl := hd.of_every (getptr_unchanged handle)
      exact h
  | delete handle module_id =>
      rcases hd.of_every (rtapi_shmem_delete_spec handle module_id ha) with
        ⟨rfl, -, -⟩ | ⟨i, -, -, hv, ⟨-, -, rfl⟩ | ⟨-, hs, hv', -⟩⟩
      · exact h
      · exact h.count hv _
      · exact h.set hs.others (fun _ _ => rfl) fun hv => absurd hv hv'

end Sized

theorem SizedRun.sized {seg : Nat → Int} (h : SizedRun bytes (fun s op => op.Fits s) s seg) :
    s.Mapped ∧ Sized bytes s seg := by
  induction h with
  | start => exact ⟨fun i hi => absurd hi (not_valid_start i), fun i hi => absurd hi (not_valid_start i)⟩
  | step op _ hf hd hg ih => exact ⟨ih.1.step op hd, ih.2.step ih.1 op hf hd hg⟩

/-- **The mapping is as large as asked for**, after calls whose sizes all fit: each handle that
`rtapi_shmem_new` returns is of a segment of `size` bytes at least, and each open handle of one of
the size it records. -/
theorem mapping_as_large {seg : Nat → Int} (h : SizedRun bytes (fun s op => op.Fits s) s seg)
    {key module_id : Int} {size : Nat} (hf : (ShmOp.new key module_id size).Fits s) {r : Int}
    (hd : Does (rtapi_shmem_new key module_id size) s l r s') (hg : Granted bytes l) :
    (0 ≤ r → size ≤ bytes ((ShmOp.new key module_id size).segments seg s l r r.toNat)) ∧
      ∀ i, s.Valid i → (s.shmem_array i).size ≤ bytes (seg i) :=
  ⟨(hd.of_every (h.sized.2.new hf) hg).2, h.sized.2⟩

/-- The only segment has 16 bytes. -/
def sixteen (id : Int) : Nat := if id = 7 then 16 else 0

/-- The first handle of the segment, and then another component opens the key. -/
theorem mapping_as_large_first : ∃ s seg l s', SizedRun sixteen (fun s op => op.Fits s) s seg ∧
    s.Open 0 ∧ Does (rtapi_shmem_new 5 1 16) s l 0 s' ∧
    16 ≤ sixteen ((ShmOp.new 5 1 16).segments seg s l 0 0) := by
  have hf : (ShmOp.new 5 0 16).Fits {} :=
    ⟨fun i _ hi => absurd hi (not_valid_start i), fun _ => by decide⟩
  have hg : 0 < (16 : Int) → (16 : Int) ≤ sixteen 7 := fun _ => by decide
  have hrun : SizedRun sixteen (fun s op => op.Fits s) _ _ :=
    .step (.new 5 0 16) .start hf ⟨plain_answers, rfl, rfl, rfl⟩
      ⟨trivial, trivial, trivial, hg, trivial, trivial⟩
  refine ⟨_, _, _, _, hrun, by decide, ⟨plain_answers, rfl, rfl, rfl⟩, ?_⟩
  refine (mapping_as_large hrun (show (ShmOp.new 5 1 16).Fits _ from ⟨fun i _ hi _ => ?_,
    fun _ => by decide⟩) ⟨plain_answers, rfl, rfl, rfl⟩ ?_).1 (by decide)
  -- only the slot 0 is open
  · cases i with
    | zero => decide
    | succ i => exact absurd hi (not_valid_start (i + 1))
  · exact trivial

/-- Without the condition: a second component asks for 100 bytes and gets the 16 of the first, and a
size of `2^32 + 16` arrives at the kernel as 16. -/
theorem mapping_too_small :
    (∃ s seg l s', SizedRun sixteen (fun _ _ => True) s seg ∧
      Does (rtapi_shmem_new 5 0 100) s l 0 s' ∧ Granted sixteen l ∧
      sixteen ((ShmOp.new 5 0 100).segments seg s l 0 0) < 100) ∧
    ∃ l s', Does (rtapi_shmem_new 5 0 (2 ^ 32 + 16)) {} l 0 s' ∧ Granted sixteen l ∧
      sixteen ((ShmOp.new 5 0 (2 ^ 32 + 16)).segments (fun _ => 0) {} l 0 0) < 2 ^ 32 + 16 := by
  have hg : 0 < (16 : Int) → (16 : Int) ≤ sixteen 7 := fun _ => by decide
  have hrun : SizedRun sixteen (fun _ _ => True) _ _ :=
    .step (.new 5 0 16) .start trivial ⟨plain_answers, rfl, rfl, rfl⟩
      ⟨trivial, trivial, trivial, hg, trivial, trivial⟩
  exact ⟨⟨_, _, _, _, hrun, ⟨plain_answers, rfl, rfl, rfl⟩, trivial, by decide⟩,
    _, _, ⟨plain_answers, rfl, rfl, rfl⟩, ⟨trivial, trivial, trivial, hg, trivial, trivial⟩,
    by decide⟩

/-! ### One release too many -/

/-- The count of the handle reached zero, and then any calls were made. -/
inductive Released (handle : Int) : Process → Prop
  | closed {s s' : Process} {T : Tally} {n : Nat} {l : List (Asked Process Call Call.Answer)}
      {module_id r : Int} : ShmRun s T n → s.Open handle →
      Does (rtapi_shmem_delete handle module_id) s l r s' → ¬ s'.Open handle → Released handle s'
  | later {s s' : Process} {l : List (Asked Process Call Call.Answer)} {r : Int} (op : ShmOp) :
      Released handle s → Does op.run s l r s' → Released handle s'

/-- No slot changed, and nothing was detached. -/
def Unnoticed (s : Process) (l : List (Asked Process Call Call.Answer)) (s' : Process) : Prop :=
  s'.shmem_array = s.shmem_array ∧ detached l = []

theorem ShmRun.mapped {T : Tally} {n : Nat} (h : ShmRun s T n) : s.Mapped := by
  induction h with
  | start => exact fun i hi => absurd hi (not_valid_start i)
  | step op _ hd ih => exact ih.step op hd

theorem Released.mapped {handle : Int} (h : Released handle s) : s.Mapped := by
  induction h with
  | @closed _ _ _ _ _ module_id _ hrun _ hd _ => exact hrun.mapped.step (.delete handle module_id) hd
  | later op _ hd ih => exact ih.step op hd

/-- A handle that is not open is refused. -/
theorem rtapi_shmem_delete_closed {handle : Int} (h : ¬ s.Open handle) (module_id : Int) :
    Every (rtapi_shmem_delete handle module_id) s l fun l' r s' =>
      r = -EINVAL ∧ l' = l ∧ s' = s := by
  unfold rtapi_shmem_delete
  refine .ite (fun _ => ⟨rfl, rfl, rfl⟩) fun hr => ?_
  rw [every_bind, every_get]
  refine .ite (fun _ => ⟨rfl, rfl, rfl⟩) fun hm => ?_
  exact absurd ⟨by omega, by omega, not_not.mp hm⟩ h

theorem toInt32_pred_ne (c : Int) : toInt32 (c - 1) ≠ c := by
  intro h
  have hdvd : ((2 ^ 32 : Nat) : Int) ∣ toInt32 (c - 1) - (c - 1) := Int.dvd_bmod_sub_self
  rw [h] at hdvd
  omega

/-- A handle that is open loses a reference. -/
theorem rtapi_shmem_delete_open (ha : s.Mapped) {handle : Int} (h : s.Open handle)
    (module_id : Int) :
    Every (rtapi_shmem_delete handle module_id) s l fun _ _ s' =>
      s'.shmem_array ≠ s.shmem_array := by
  refine (rtapi_shmem_delete_spec handle module_id ha).mono fun l' r s' hout he => ?_
  rcases hout with ⟨-, -, hno⟩ | ⟨i, -, -, hv, ⟨-, -, rfl⟩ | ⟨-, -, hv', -⟩⟩
  · obtain ⟨h0, hlt, hv⟩ := h
    exact hno handle.toNat (by omega) (by omega) hv
  · have hi := congrFun he i
    rw [Process.setSlot_self] at hi
    exact toInt32_pred_ne _ (congrArg Handle.count hi)
  · unfold Process.Valid at hv hv'
    exact hv' (by rw [he]; exact hv)

/-- **One release too many is never harmless.**  It is refused, unless the slot was opened again:
then it takes one of the references there. -/
theorem extra_delete {handle : Int} (h : Released handle s) (module_id : Int) {r : Int}
    (hd : Does (rtapi_shmem_delete handle module_id) s l r s') :
    ¬ (r = 0 ∧ Unnoticed s l s') ∧ (Unnoticed s l s' ↔ ¬ s.Open handle) := by
  by_cases ho : s.Open handle
  · have hne := hd.of_every (rtapi_shmem_delete_open h.mapped ho module_id)
    exact ⟨fun hu => hne hu.2.1, fun hu => absurd hu.1 hne, fun hn => absurd ho hn⟩
  · obtain ⟨rfl, rfl, rfl⟩ := hd.of_every (rtapi_shmem_delete_closed ho module_id)
    exact ⟨fun hu => absurd hu.1 (by decide), fun _ => ho, fun _ => ⟨rfl, rfl⟩⟩

/-- The handle of key 5 is released, and released again. -/
theorem extra_delete_sample : ∃ s l s', Released 0 s ∧
    Does (rtapi_shmem_delete 0 0) s l (-EINVAL) s' ∧ ¬ ((-EINVAL : Int) = 0 ∧ Unnoticed s l s') := by
  have hopen : ShmRun _ _ _ := .step (.new 5 0 16) .start ⟨plain_answers, rfl, rfl, rfl⟩
  have hrel : Released 0 _ := .closed hopen (by decide)
    (⟨plain_answers, rfl, rfl, rfl⟩ : Does (rtapi_shmem_delete 0 0) _ _ _ _) (by decide)
  refine ⟨_, _, _, hrel, ⟨plain_answers, rfl, rfl, rfl⟩, (extra_delete hrel 0 ?_).1⟩
  exact ⟨plain_answers, rfl, rfl, rfl⟩

/-- Between the two releases the slot is given to key 9: the second one detaches its segment. -/
theorem extra_delete_detaches : ∃ s l s', Released 0 s ∧ s.Open 0 ∧ (s.shmem_array 0).key = 9 ∧
    Does (rtapi_shmem_delete 0 0) s l 0 s' ∧ ¬ s'.Open 0 ∧ detached l = [4096] := by
  have hopen : ShmRun _ _ _ := .step (.new 5 0 16) .start ⟨plain_answers, rfl, rfl, rfl⟩
  have hrel : Released 0 _ := .closed hopen (by decide)
    (⟨plain_answers, rfl, rfl, rfl⟩ : Does (rtapi_shmem_delete 0 0) _ _ _ _) (by decide)
  have hnew : Released 0 _ := hrel.later (.new 9 0 16) ⟨plain_answers, rfl, rfl, rfl⟩
  exact ⟨_, _, _, hnew, by decide, by decide, ⟨plain_answers, rfl, rfl, rfl⟩, by decide, rfl⟩

end RTS.Uspace

import RealTimeSystem.Support.Steps
import RealTimeSystem.Uspace.Rtapi

/-!
# RTAPI — the identifiers of modules

Any sequence of `rtapi_init` and `rtapi_exit` in one process, each exit for an identifier that is
held.  `rtapi_init` stores the address of the counter the first time it is called and never again,
also when the last `rtapi_exit` unmapped it.
-/

namespace RTS.Uspace

open RTS.Support RTS.Hal

/-! ### The numbers -/

theorem toInt32_idem (x : Int) : toInt32 (toInt32 x) = toInt32 x := Int.bmod_bmod

theorem toInt32_succ (x : Int) : toInt32 (toInt32 x + 1) = toInt32 (x + 1) := Int.bmod_add_bmod

/-- Fewer than `2 ^ 31` steps of the counter do not come back. -/
theorem toInt32_ne {id : Int} {k : Nat} (hid : toInt32 id = id) (h₀ : 0 < k) (hk : k < 2 ^ 31) :
    toInt32 (id + k) ≠ id := by
  intro he
  have hz : toInt32 (id + k - id) = 0 :=
    Int.bmod_eq_bmod_iff_bmod_sub_eq_zero.mp (he.trans hid.symm)
  rw [show id + (k : Int) - id = k by omega, toInt32_eq (by omega) (by omega)] at hz
  omega

/-! ### The calls -/

inductive ModOp where
  | rtapi_init (modname : CStr)
  | rtapi_exit (module_id : Int)

/-- A process and the identifiers its modules hold. -/
structure Modules where
  machine : Machine := {}
  held : List Int := []

/-- The UUID segment is open. -/
def Machine.Serves (m : Machine) : Prop := m.process.Open m.process.uuid_mem_id

instance (m : Machine) : Decidable m.Serves :=
  inferInstanceAs (Decidable (m.process.Open m.process.uuid_mem_id))

/-- The counter used is the one in the segment that is mapped now. -/
def Process.Current (p : Process) : Prop := p.uuid_data = (p.shmem_array p.uuid_mem_id.toNat).mem

/-! ### One call of either -/

theorem perform_asked {α : Type} {K : Kernel} {x : Sys α} {m : Machine}
    {Q : List (Asked Process Call Call.Answer) → α → Process → Prop}
    (h : Every x m.process [] Q) :
    Q ((x m.process).asked K m.tick []) (perform K x m).1 (perform K x m).2.process :=
  Tree.All.run h K m.tick

theorem serves_of_valid {m : Machine} (hid : m.process.uuid_mem_id = 0)
    (hv : m.process.Valid 0) : m.Serves := by
  unfold Machine.Serves Process.Open
  rw [hid]
  exact ⟨by decide, by decide, hv⟩

theorem Live.current {p : Process} (h : Live p) : p.Current := by
  unfold Process.Current
  rw [h.mem_id]
  exact h.data

/-- The other handles after a change of the first. -/
theorem others_of_set {p : Process} {x : Handle} (hv : ∀ j, j ≠ 0 → ¬ p.Valid j) :
    ∀ j, j ≠ 0 → ¬ (p.setSlot 0 x).Valid j := fun j hj hvj => by
  unfold Process.Valid at hvj
  rw [Process.setSlot_of_ne _ hj] at hvj
  exact hv j hj hvj

/-- The last `rtapi_exit` closes the handle. -/
theorem rtapi_exit_last {s : Process} (h : Live s) (hv : ∀ j, j ≠ 0 → ¬ s.Valid j)
    (hr : s.refs = 1) (id : Int) :
    Every (rtapi_exit id) s [] fun _ _ s' => ∀ j, ¬ s'.Valid j := by
  have hactive : ∀ i, s.Valid i → (s.shmem_array i).state = .active := fun i hi => by
    by_cases h0 : i = 0
    · exact h0 ▸ h.active
    · exact absurd hi (hv i h0)
  unfold rtapi_exit
  rw [every_bind, every_get, every_bind, h.mem_id]
  refine (rtapi_shmem_delete_spec 0 id hactive).mono fun l r s' hout j => ?_
  rcases hout with ⟨-, -, hnot⟩ | ⟨i, -, hi, -, hout⟩
  · exact absurd h.valid (hnot 0 rfl (by decide))
  obtain rfl : i = 0 := by omega
  rcases hout with ⟨hpos, -⟩ | ⟨-, hs, hv', -⟩
  · rw [show (s.shmem_array 0).count = 1 from hr] at hpos
    exact absurd hpos (by decide)
  · by_cases hj : j = 0
    · exact hj ▸ hv'
    · intro hvj
      unfold Process.Valid at hvj
      rw [hs.others j hj] at hvj
      exact hv j hj hvj

namespace Modules

variable (K : Kernel)

/-- A call of `rtapi_init` that leaves the segment open returned an identifier. -/
def step : ModOp → Modules → Option Modules
  | .rtapi_init modname, s =>
      let p := perform K (rtapi_init modname) s.machine
      some ⟨p.2, if p.2.Serves then p.1 :: s.held else s.held⟩
  | .rtapi_exit module_id, s =>
      if module_id ∈ s.held then
        some ⟨(perform K (rtapi_exit module_id) s.machine).2, s.held.erase module_id⟩
      else none

/-- A call of `rtapi_init` that returns an identifier advanced the counter in the segment that is
mapped, and no identifier is held twice. -/
def Sound (s : Modules) (a : ModOp) : Prop :=
  ∀ s', step K a s = some s' → s'.held.Nodup ∧
    ∀ modname, a = .rtapi_init modname → s'.machine.Serves → s'.machine.process.Current

/-- If `rtapi_init` maps the segment, then where the stored address is, or none is stored. -/
def Remapped (s : Modules) : ModOp → Prop
  | .rtapi_init modname =>
      ∀ a ∈ mapped ((rtapi_init modname s.machine.process).asked K s.machine.tick []),
        s.machine.process.uuid_data = 0 ∨ a = s.machine.process.uuid_data
  | .rtapi_exit _ => True

instance (s : Modules) (a : ModOp) : Decidable (Remapped K s a) :=
  match a with
  | .rtapi_init modname =>
      inferInstanceAs (Decidable (∀ a ∈ mapped
        ((rtapi_init modname s.machine.process).asked K s.machine.tick []), _ ∨ _))
  | .rtapi_exit _ => .isTrue trivial

/-- The calls of `rtapi_init`. -/
def inits : List ModOp → Nat
  | [] => 0
  | .rtapi_init _ :: as => inits as + 1
  | .rtapi_exit _ :: as => inits as

/-! ### The phases of the segment -/

/-- The identifiers held are numbers of the last `n` steps of the counter `c`. -/
structure Numbered (held : List Int) (c : Int) (n : Nat) : Prop where
  nodup : held.Nodup
  steps : ∀ id ∈ held, toInt32 id = id ∧ ∃ j < n, c = toInt32 (id + j)

/-- Nobody holds an identifier, or the segment is mapped where the stored address is. -/
inductive Phase (s : Modules) (n : Nat) : Prop where
  | closed (hv : ∀ j, ¬ s.machine.process.Valid j) (hh : s.held = [])
  | served (hl : Live s.machine.process) (hv : ∀ j, j ≠ 0 → ¬ s.machine.process.Valid j)
      (hr : s.machine.process.refs = s.held.length) (hn : s.held.length ≤ n)
      (h₀ : s.held ≠ [])
      (hnum : Numbered s.held (s.machine.process.uuid s.machine.process.uuid_data) n)

variable {K} {s s' : Modules} {a : ModOp} {n : Nat}

theorem Numbered.next {held : List Int} {c r : Int} (h : Numbered held c n) (hn : n < 2 ^ 31)
    (hr : r = toInt32 (c + 1)) : Numbered (r :: held) r (n + 1) := by
  have hstep : ∀ id ∈ held, ∃ j < n, r = toInt32 (id + (j + 1 : Nat)) := by
    intro id hid
    obtain ⟨-, j, hj, rfl⟩ := h.steps id hid
    refine ⟨j, hj, ?_⟩
    rw [hr, toInt32_succ, Int.add_assoc]
    rfl
  have hnew : r ∉ held := by
    intro hid
    obtain ⟨j, hj, he⟩ := hstep r hid
    exact toInt32_ne (h.steps r hid).1 (by omega) (by omega) he.symm
  refine ⟨List.nodup_cons.mpr ⟨hnew, h.nodup⟩, fun id hid => ?_⟩
  rcases List.mem_cons.mp hid with rfl | hid
  · have hid : toInt32 id = id := by rw [hr, toInt32_idem]
    exact ⟨hid, 0, by omega, by rw [Int.natCast_zero, Int.add_zero, hid]⟩
  · obtain ⟨j, hj, he⟩ := hstep id hid
    exact ⟨(h.steps id hid).1, j + 1, by omega, he⟩

theorem Numbered.erase {held : List Int} {c : Int} (h : Numbered held c n) (id : Int) :
    Numbered (held.erase id) c n :=
  ⟨h.nodup.erase id, fun x hx => h.steps x (List.mem_of_mem_erase hx)⟩

/-- `rtapi_init` with the segment open. -/
theorem init_served (hl : Live s.machine.process) (hv : ∀ j, j ≠ 0 → ¬ s.machine.process.Valid j)
    (hr : s.machine.process.refs = s.held.length) (hn : s.held.length + 1 < 2 ^ 31)
    (hnum : Numbered s.held (s.machine.process.uuid s.machine.process.uuid_data) n)
    (hn' : n < 2 ^ 31) (hle : s.held.length ≤ n) {modname : CStr}
    (ha : step K (.rtapi_init modname) s = some s') :
    Phase s' (n + 1) ∧ Live s'.machine.process := by
  obtain rfl := Option.some.inj ha
  obtain ⟨⟨hl', hr', hid, hd, hc, -⟩, -, -, hs⟩ := perform_asked (K := K)
    ((hl.init (l := []) (by omega) (by omega) modname).and (rtapi_init_live hl modname))
  have hserves := serves_of_valid hl'.mem_id hl'.valid
  refine ⟨.served hl' ?_ ?_ ?_ ?_ ?_, hl'⟩
  · rw [hs]
    exact others_of_set hv
  · rw [if_pos hserves, hr', hr]
    rfl
  · rw [if_pos hserves]
    exact Nat.succ_le_succ hle
  · rw [if_pos hserves]
    exact List.cons_ne_nil _ _
  · rw [if_pos hserves, hc]
    exact hnum.next hn' hid

/-- `rtapi_init` with no handle open, where the segment is mapped at the stored address. -/
theorem init_closed (hv : ∀ j, ¬ s.machine.process.Valid j) (hh : s.held = [])
    (hn : n < 2 ^ 31) {modname : CStr} (hc : Remapped K s (.rtapi_init modname))
    (ha : step K (.rtapi_init modname) s = some s') :
    Phase s' (n + 1) ∧ (s'.machine.Serves → s'.machine.process.Current) := by
  obtain rfl := Option.some.inj ha
  rcases perform_asked (K := K) (rtapi_init_closed (l := []) hv modname) with
    ⟨-, -, hv', hneg⟩ | ⟨m, hm, hmap⟩
  · have hnot : ¬ (perform K (rtapi_init modname) s.machine).2.Serves :=
      fun ho => absurd ho.1 (Int.not_le.mpr hneg)
    refine ⟨.closed hv' ?_, fun ho => absurd ho hnot⟩
    rw [if_neg hnot]
    exact hh
  · have hserves := serves_of_valid hmap.mem_id hmap.valid
    have hd : (perform K (rtapi_init modname) s.machine).2.process.uuid_data = m.addr := by
      rw [hmap.data]
      split_ifs with hz
      · rfl
      · exact ((hc m.addr hm).resolve_left hz).symm
    have hl : Live (perform K (rtapi_init modname) s.machine).2.process :=
      ⟨hmap.mem_id, hmap.valid, hmap.key, hmap.active, hd.trans hmap.mem.symm, hd ▸ m.ne⟩
    refine ⟨.served hl hmap.others ?_ ?_ ?_ ?_, fun _ => hl.current⟩
    · rw [if_pos hserves, hh]
      exact hmap.refs
    · rw [if_pos hserves, hh]
      exact Nat.succ_le_succ (Nat.zero_le n)
    · rw [if_pos hserves]
      exact List.cons_ne_nil _ _
    · rw [if_pos hserves, hh, hmap.counter]
      exact Numbered.next ⟨List.nodup_nil, nofun⟩ hn hmap.next

/-- What a call of `rtapi_init` leads to. -/
theorem Phase.init (h : Phase s n) (hn : n + 1 < 2 ^ 31) {modname : CStr}
    (hc : Remapped K s (.rtapi_init modname)) (ha : step K (.rtapi_init modname) s = some s') :
    Phase s' (n + 1) ∧ (s'.machine.Serves → s'.machine.process.Current) := by
  cases h with
  | closed hv hh => exact init_closed hv hh (by omega) hc ha
  | served hl hv hr hlen h₀ hnum =>
      obtain ⟨hp, hl'⟩ := init_served hl hv hr (by omega) hnum (by omega) hlen ha
      exact ⟨hp, fun _ => hl'.current⟩

theorem Phase.exit (h : Phase s n) (hn : n < 2 ^ 31) {id : Int}
    (ha : step K (.rtapi_exit id) s = some s') : Phase s' n := by
  obtain ⟨hid, heq⟩ := Option.ite_none_right_eq_some.mp ha
  obtain rfl := Option.some.inj heq
  cases h with
  | closed hv hh => exact absurd hid (by rw [hh]; exact List.not_mem_nil)
  | served hl hv hr hlen h₀ hnum =>
      have herase : (s.held.erase id).length = s.held.length - 1 := List.length_erase_of_mem hid
      have hpos : 0 < s.held.length := List.length_pos_iff.mpr h₀
      by_cases hone : s.held.length = 1
      · refine .closed (perform_asked (K := K) (rtapi_exit_last hl hv (by omega) id)) ?_
        exact List.length_eq_zero_iff.mp (show (s.held.erase id).length = 0 by omega)
      · obtain ⟨⟨hl', hr', hd, hu, -⟩, -, hs⟩ := perform_asked (K := K)
          ((hl.exit (l := []) (by omega) (by omega) id).and
            (rtapi_exit_live hl (by omega) (by omega) id))
        refine .served hl' ?_ ?_ (show (s.held.erase id).length ≤ n by omega) ?_ ?_
        · rw [hs]
          exact others_of_set hv
        · show (perform K (rtapi_exit id) s.machine).2.process.refs = (s.held.erase id).length
          omega
        · exact List.ne_nil_of_length_pos (show 0 < (s.held.erase id).length by omega)
        · rw [hu, hd]
          exact hnum.erase id

theorem Phase.nodup (h : Phase s n) : s.held.Nodup := by
  cases h with
  | closed hv hh => exact hh ▸ List.nodup_nil
  | served hl hv hr hlen h₀ hnum => exact hnum.nodup

/-- One call that maps the segment, if at all, at the stored address. -/
theorem Phase.step (h : Phase s n) (hn : n + inits [a] < 2 ^ 31) (hc : Remapped K s a)
    (ha : step K a s = some s') : Phase s' (n + inits [a]) ∧ Sound K s a := by
  cases a with
  | rtapi_init modname =>
      obtain ⟨hp, hcur⟩ := h.init hn hc ha
      refine ⟨hp, fun s₁ h₁ => ?_⟩
      obtain rfl := Option.some.inj (ha.symm.trans h₁)
      exact ⟨hp.nodup, fun _ _ => hcur⟩
  | rtapi_exit id =>
      have hp := h.exit hn ha
      refine ⟨hp, fun s₁ h₁ => ?_⟩
      obtain rfl := Option.some.inj (ha.symm.trans h₁)
      exact ⟨hp.nodup, nofun⟩

/-- Another address than the stored one is seen in the call that maps it. -/
theorem Phase.remapped (h : Phase s n) (hs : Sound K s a) : Remapped K s a := by
  cases a with
  | rtapi_exit id => trivial
  | rtapi_init modname =>
      intro addr haddr
      cases h with
      | served hl hv hr hlen h₀ hnum =>
          obtain ⟨hl', -⟩ := perform_asked (K := K) (rtapi_init_live (l := []) hl modname)
          rw [hl'] at haddr
          cases haddr
      | closed hv hh =>
          rcases perform_asked (K := K) (rtapi_init_closed (l := []) hv modname) with
            ⟨-, hm, -⟩ | ⟨m, hm, hmap⟩
          · rw [hm] at haddr
            cases haddr
          · obtain rfl := Option.some.inj (hm.symm.trans haddr)
            have hcur : (perform K (rtapi_init modname) s.machine).2.process.Current :=
              (hs _ rfl).2 modname rfl (serves_of_valid hmap.mem_id hmap.valid)
            unfold Process.Current at hcur
            rw [hmap.data, hmap.mem_id, Int.toNat_zero, hmap.mem] at hcur
            split_ifs at hcur with hz
            · exact .inl hz
            · exact .inr hcur.symm

/-! ### Any sequence of calls -/

theorem inits_cons (a : ModOp) (as : List ModOp) : inits (a :: as) = inits [a] + inits as := by
  cases a with
  | rtapi_init modname => exact Nat.add_comm _ _
  | rtapi_exit id => exact (Nat.zero_add _).symm

theorem Phase.meets (as : List ModOp) (h : Phase s n) (hn : n + inits as < 2 ^ 31) :
    Meets (Modules.step K) (Sound K) as s ↔ Meets (Modules.step K) (Remapped K) as s := by
  induction as generalizing s n with
  | nil => rfl
  | cons a as ih =>
      rw [inits_cons] at hn
      have hrest : Remapped K s a →
          ((Modules.step K a s).elim True (Meets (Modules.step K) (Sound K) as) ↔
            (Modules.step K a s).elim True (Meets (Modules.step K) (Remapped K) as)) := by
        intro hc
        cases ha : Modules.step K a s with
        | none => rfl
        | some s' => exact ih (h.step (by omega) hc ha).1 (by omega)
      refine ⟨fun ⟨hs, hm⟩ => ?_, fun ⟨hc, hm⟩ => ?_⟩
      · exact ⟨h.remapped hs, (hrest (h.remapped hs)).mp hm⟩
      · refine ⟨?_, (hrest hc).mpr hm⟩
        intro s' ha
        exact (h.step (by omega) hc ha).2 s' ha

theorem start_phase : Phase {} 0 := .closed (fun _ => show (0 : Int) ≠ SHMEM_MAGIC by decide) rfl

/-- **Identifiers are fresh and the counter is live** in a sequence of calls, when and only when the
segment is never mapped at another address than the stored one. -/
theorem identifiers_fresh (K : Kernel) (as : List ModOp) (hn : inits as < 2 ^ 31) :
    Meets (Modules.step K) (Sound K) as {} ↔ Meets (Modules.step K) (Remapped K) as {} :=
  start_phase.meets as (by omega)

/-- Two modules, and a third after one has left. -/
def threeModules : List ModOp :=
  [.rtapi_init [], .rtapi_init [], .rtapi_exit 2, .rtapi_init []]

theorem identifiers_fresh_sample :
    Meets (Modules.step plain_answers) (Sound plain_answers) threeModules {} ∧
      (acted (Modules.step plain_answers) threeModules {}).map Modules.held = some [3, 1] :=
  ⟨(identifiers_fresh plain_answers threeModules (by decide)).mpr (by decide +kernel),
    by decide +kernel⟩

theorem moving_ne (n : Nat) : (4096 * (n + 1) : Addr) ≠ 0 := by
  unfold Addr
  omega

/-- A system that maps the segment at another address each time. -/
def moving (n : Nat) : (c : Call) → c.Answer
  | .shmat _ => .ok ⟨4096 * (n + 1), moving_ne n, 0⟩
  | c => plain_answers n c

/-- A module that leaves, and another. -/
def oneAfterOther : List ModOp := [.rtapi_init [], .rtapi_exit 1, .rtapi_init []]

/-- The second `rtapi_init` advances a counter where nothing is mapped any more. -/
theorem oneAfterOther_stale : ¬ ∀ (K : Kernel) (as : List ModOp), inits as < 2 ^ 31 →
    Meets (Modules.step K) (Sound K) as {} := by
  intro h
  have hm := (start_phase.meets oneAfterOther (by decide)).mp (h moving oneAfterOther (by decide))
  exact absurd hm (by decide +kernel)

end Modules

end RTS.Uspace

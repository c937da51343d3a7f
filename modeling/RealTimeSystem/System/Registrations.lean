import RealTimeSystem.System.Exporting

/-!
# System — the calls with which a component registers something

`hal_pin_new`, `hal_param_new` and `hal_export_funct` do the same to the list of their kind: they
look at their arguments (`Passes`), get a structure, and insert it under its name.  `spec` is what a
call comes to on the registry as long as no pin is registered; it depends on the memory and the
names, and on nothing else (`spec_passed`, `spec_refused`).  A function whose pin is refused stays
on the list.

**`Registration.run_spec`**: a call that registers no pin is its `spec`.
-/

namespace RTS.Hal

open RTS.Support RTS.Uspace

variable {σ : Type} {R : Rtapi σ} {s s' : State σ} {L L' : Lists}

/-! ### Names -/

/-- The kinds of structures that a component registers. -/
def Named (k : Kind) : Prop := k = .pin ∨ k = .param ∨ k = .funct

instance (k : Kind) : Decidable (Named k) := inferInstanceAs (Decidable (_ ∨ _))

/-- The names of a table, in the order of the list. -/
def Registry.names (g : Registry) : Kind → List CStr
  | .pin => g.pins.map fun p => p.2.name
  | .param => g.params.map fun p => p.2.name
  | .funct => g.functs.map fun p => p.2.name
  | _ => []

/-- The name of a structure. -/
def Segment.nameOf (m : Segment) : Kind → Nat → CStr
  | .pin, x => (m.pin x).name
  | .param, x => (m.param x).name
  | .funct, x => (m.funct x).name
  | _, _ => []

/-- The order of the lists that are sorted by name. -/
abbrev StrLt (a b : CStr) : Prop := strcmp a b < 0

/-! ### The calls -/

/-- A call with which a component registers something. -/
inductive Registration where
  | hal_pin_new (name : CStr) (type : HalType) (data_ptr_addr : Addr)
  | hal_param_new (name : CStr) (type : HalType) (dir : ParamDir) (data_addr : Addr)
  | hal_export_funct (name : CStr) (funct arg : Addr) (uses_fp reentrant : Int)

namespace Registration

def run (comp_id : Int) : Registration → Prog σ Int
  | hal_pin_new name type data_ptr_addr => Hal.hal_pin_new name type data_ptr_addr comp_id
  | hal_param_new name type dir data_addr => Hal.hal_param_new name type dir data_addr comp_id
  | hal_export_funct name funct arg uses_fp reentrant =>
      Hal.hal_export_funct name funct arg uses_fp reentrant comp_id

/-- All the calls, and what they return. -/
def runAll (comp_id : Int) : List Registration → Prog σ (List Int)
  | [] => return []
  | call :: calls => do
      let r ← call.run comp_id
      let rs ← runAll comp_id calls
      return r :: rs

/-- The kind of structure that the call inserts. -/
def kind : Registration → Kind
  | hal_pin_new .. => .pin
  | hal_param_new .. => .param
  | hal_export_funct .. => .funct

/-- The name it gets. -/
def name : Registration → CStr
  | hal_pin_new name .. => rt_snprintf (HAL_NAME_LEN + 1) name
  | hal_param_new name .. => rt_snprintf (HAL_NAME_LEN + 1) name
  | hal_export_funct name .. => rt_snprintf (HAL_NAME_LEN + 1) name

/-- The arguments are in order, and loading is not locked. -/
def Passes (base : Addr) (lock : UInt8) : Registration → Prop
  | hal_pin_new name type data_ptr_addr =>
      (Registry.paramType type ∨ type = .port) ∧ ¬ name.length > HAL_NAME_LEN ∧
        ¬ lock &&& HAL_LOCK_LOAD ≠ 0 ∧ SHMCHK base data_ptr_addr = true
  | hal_param_new name type dir data_addr =>
      Registry.paramType type ∧ ¬ (dir ≠ .ro ∧ dir ≠ .rw) ∧ ¬ name.length > HAL_NAME_LEN ∧
        ¬ lock &&& HAL_LOCK_LOAD ≠ 0 ∧ SHMCHK base data_addr = true
  | hal_export_funct name .. => ¬ name.length > HAL_NAME_LEN ∧ ¬ lock &&& HAL_LOCK_LOAD ≠ 0

/-- The call inserts a structure: it gets one, and its name is free. -/
structure Inserts (s : State σ) (call : Registration) : Prop where
  passes : call.Passes s.hal_shmem_base s.shm.lock
  room : ¬ s.shm.arena.Full call.kind
  free : ∀ x, s.shm.Listed call.kind x → s.shm.nameOf call.kind x ≠ call.name

/-- The call registers a pin: its own, or that of its function. -/
def Pins (s : State σ) (call : Registration) : Prop :=
  call.Inserts s ∧
    match call with
    | hal_pin_new .. => True
    | hal_param_new .. => False
    | hal_export_funct name .. => PinFits s name

/-- None of the calls registers a pin. -/
def Pinless (comp_id : Int) : List Registration → State σ → Prop
  | [], _ => True
  | call :: calls, s =>
      ¬ call.Pins s ∧ ∀ r s', call.run comp_id s = .ok r s' → Pinless comp_id calls s'

/-- The pin of the function would have a name of its own. -/
def PinNamed (m : Segment) : Registration → Prop
  | hal_export_funct name .. => ¬ (name ++ dotTime).length > HAL_NAME_LEN ∧
      ∀ p, m.Listed .pin p → (m.pin p).name ≠ name ++ dotTime
  | _ => False

/-! ### What a call comes to -/

/-- The call on the registry, when no pin is registered. -/
def spec (g : Registry) (base : Addr) (lock : UInt8) (new : Nat) (comp_id : Int) :
    Registration → Int × List Event
  | hal_pin_new name type data_ptr_addr => g.pin_new base lock new name type data_ptr_addr comp_id
  | hal_param_new name type dir data_addr =>
      g.param_new base lock new name type dir data_addr comp_id
  | hal_export_funct name funct arg uses_fp reentrant =>
      let made := g.export_funct lock new name funct arg uses_fp reentrant comp_id
      (if made.1 = 0 then -EINVAL else made.1, made.2)

/-- What it returns when it inserts a structure. -/
def listed : Registration → Int
  | hal_pin_new .. => 0
  | hal_param_new .. => 0
  | hal_export_funct .. => -EINVAL

/-- The structure it inserts, of the component `c`. -/
def event (base : Addr) (new c : Nat) : Registration → Event
  | hal_pin_new name type data_ptr_addr => .addPin new
      { data_ptr_addr := data_ptr_addr - base, owner_ptr := c, signal := 0, oldname := 0
        type := type, name := rt_snprintf (HAL_NAME_LEN + 1) name }
  | hal_param_new name type dir data_addr => .addParam new
      { data_ptr := data_addr - base, owner_ptr := c, oldname := 0, type := type, dir := dir
        name := rt_snprintf (HAL_NAME_LEN + 1) name }
  | hal_export_funct name funct arg uses_fp reentrant => .addFunct new
      { uses_fp := uses_fp, owner_ptr := c, reentrant := reentrant, users := 0, arg := arg
        funct := funct, name := rt_snprintf (HAL_NAME_LEN + 1) name }

end Registration

/-- The component `c` with the id is being loaded. -/
def Registry.Loading (g : Registry) (comp_id : Int) (c : Nat) : Prop :=
  ∃ comp, g.findComp comp_id = some (c, comp) ∧ comp.ready = 0 ∧ comp.type ≠ .user

namespace Registration

variable {g : Registry} {base : Addr} {lock : UInt8} {new c : Nat} {comp_id : Int}
  {call : Registration}

theorem kind_ne_entry (call : Registration) : call.kind ≠ .entry := by
  cases call <;> exact fun h => nomatch h

theorem kind_ne_thread (call : Registration) : call.kind ≠ .thread := by
  cases call <;> exact fun h => nomatch h

theorem event_for (call : Registration) (base : Addr) (new c : Nat) :
    (call.event base new c).For c := by
  cases call <;> rfl

/-- A call that does not pass returns the same error everywhere. -/
theorem spec_refused (h : ¬ call.Passes base lock) :
    ∃ e, ∀ g new comp_id, call.spec g base lock new comp_id = (e, []) := by
  cases call with
  | hal_pin_new name type data_ptr_addr =>
      by_cases ht : Registry.paramType type ∨ type = .port
      swap
      · exact ⟨-EINVAL, fun g new comp_id => by rw [spec, Registry.pin_new, if_pos ht]⟩
      by_cases hn : name.length > HAL_NAME_LEN
      · exact ⟨-EINVAL, fun g new comp_id => by
          rw [spec, Registry.pin_new, if_neg (not_not_intro ht), if_pos hn]⟩
      by_cases hl : lock &&& HAL_LOCK_LOAD ≠ 0
      · exact ⟨-EPERM, fun g new comp_id => by
          rw [spec, Registry.pin_new, if_neg (not_not_intro ht), if_neg hn, if_pos hl]⟩
      have hin : SHMCHK base data_ptr_addr = false :=
        Bool.eq_false_iff.mpr fun hin => h ⟨ht, hn, hl, hin⟩
      exact ⟨-EINVAL, fun g new comp_id => by
        rw [spec, Registry.pin_new, if_neg (not_not_intro ht), if_neg hn, if_neg hl, hin,
          Registry.register_outside]⟩
  | hal_param_new name type dir data_addr =>
      by_cases ht : Registry.paramType type
      swap
      · exact ⟨-EINVAL, fun g new comp_id => by rw [spec, Registry.param_new, if_pos ht]⟩
      by_cases hd : dir ≠ .ro ∧ dir ≠ .rw
      · exact ⟨-EINVAL, fun g new comp_id => by
          rw [spec, Registry.param_new, if_neg (not_not_intro ht), if_pos hd]⟩
      by_cases hn : name.length > HAL_NAME_LEN
      · exact ⟨-EINVAL, fun g new comp_id => by
          rw [spec, Registry.param_new, if_neg (not_not_intro ht), if_neg hd, if_pos hn]⟩
      by_cases hl : lock &&& HAL_LOCK_LOAD ≠ 0
      · exact ⟨-EPERM, fun g new comp_id => by
          rw [spec, Registry.param_new, if_neg (not_not_intro ht), if_neg hd, if_neg hn, if_pos hl]⟩
      have hin : SHMCHK base data_addr = false :=
        Bool.eq_false_iff.mpr fun hin => h ⟨ht, hd, hn, hl, hin⟩
      exact ⟨-EINVAL, fun g new comp_id => by
        rw [spec, Registry.param_new, if_neg (not_not_intro ht), if_neg hd, if_neg hn, if_neg hl,
          hin, Registry.register_outside]⟩
  | hal_export_funct name funct arg uses_fp reentrant =>
      unfold spec Registry.export_funct
      by_cases hn : name.length > HAL_NAME_LEN
      · exact ⟨-EINVAL, fun g new comp_id => by simp only [if_pos hn]; rfl⟩
      · have hl : lock &&& HAL_LOCK_LOAD ≠ 0 := Decidable.by_contra fun hl => h ⟨hn, hl⟩
        exact ⟨-EPERM, fun g new comp_id => by simp only [if_neg hn, if_pos hl]; rfl⟩

/-- **A call that passes** looks at the memory and then at the names. -/
theorem spec_passed (h : call.Passes base lock) (hc : g.Loading comp_id c) :
    call.spec g base lock new comp_id =
      if new = 0 then (-ENOMEM, []) else if call.name ∈ g.names call.kind then (-EINVAL, [])
      else (call.listed, [call.event base new c]) := by
  obtain ⟨comp, hf, hr, hu⟩ := hc
  cases call with
  | hal_pin_new name type data_ptr_addr =>
      obtain ⟨ht, hn, hl, hin⟩ := h
      have htaken : (∃ p ∈ g.pins, p.2.name = rt_snprintf (HAL_NAME_LEN + 1) name) ↔
          rt_snprintf (HAL_NAME_LEN + 1) name ∈ g.names .pin := List.mem_map.symm
      rw [spec, Registry.pin_new, if_neg (not_not_intro ht), if_neg hn, if_neg hl, hin,
        Registry.register_found hf hr]
      simp only [htaken]
      rfl
  | hal_param_new name type dir data_addr =>
      obtain ⟨ht, hd, hn, hl, hin⟩ := h
      have htaken : (∃ p ∈ g.params, p.2.name = rt_snprintf (HAL_NAME_LEN + 1) name) ↔
          rt_snprintf (HAL_NAME_LEN + 1) name ∈ g.names .param := List.mem_map.symm
      rw [spec, Registry.param_new, if_neg (not_not_intro ht), if_neg hd, if_neg hn, if_neg hl, hin,
        Registry.register_found hf hr]
      simp only [htaken]
      rfl
  | hal_export_funct name funct arg uses_fp reentrant =>
      obtain ⟨hn, hl⟩ := h
      have htaken : (∃ p ∈ g.functs, p.2.name = rt_snprintf (HAL_NAME_LEN + 1) name) ↔
          rt_snprintf (HAL_NAME_LEN + 1) name ∈ g.names .funct := List.mem_map.symm
      have hspec : g.export_funct lock new name funct arg uses_fp reentrant comp_id =
          if new = 0 then (-ENOMEM, [])
          else if rt_snprintf (HAL_NAME_LEN + 1) name ∈ g.names .funct then (-EINVAL, [])
          else (0, [event base new c (.hal_export_funct name funct arg uses_fp reentrant)]) := by
        simp only [Registry.export_funct, if_neg hn, if_neg hl, hf, if_neg hu,
          if_neg (not_not_intro hr), htaken]
        rfl
      rw [spec, hspec]
      by_cases h0 : new = 0
      · rw [if_pos h0, if_pos h0]
        rfl
      rw [if_neg h0, if_neg h0]
      by_cases hdup : rt_snprintf (HAL_NAME_LEN + 1) name ∈ g.names .funct
      · rw [if_pos hdup]
        exact (if_pos hdup).symm
      · rw [if_neg hdup]
        exact (if_neg hdup).symm

/-! ### Names after a call -/

theorem names_event (call : Registration) (g : Registry) (base : Addr) (new c : Nat) (k : Kind) :
    (g.apply (call.event base new c)).names k =
      if k = call.kind then enter StrLt call.name (g.names k) else g.names k := by
  by_cases hk : k = call.kind
  · subst hk
    rw [if_pos rfl]
    cases call with
    | hal_pin_new => exact enter_map fun _ _ => Iff.rfl
    | hal_param_new => exact enter_map fun _ _ => Iff.rfl
    | hal_export_funct => exact enter_map fun _ _ => Iff.rfl
  · rw [if_neg hk]
    cases call <;> cases k <;> first | rfl | exact absurd rfl hk

end Registration

theorem names_view {m : Segment} {k : Kind} (hk : Named k) :
    (view m L).names k = (L.act k).map (m.nameOf k) := by
  rcases hk with rfl | rfl | rfl
  · exact List.map_map
  · exact List.map_map
  · exact List.map_map

/-- A list has as many structures as names. -/
theorem names_length {m : Segment} {k : Kind} (hk : Named k) :
    ((view m L).names k).length = (L.act k).length := by
  rw [names_view hk, List.length_map]

theorem mem_names {m : Segment} {k : Kind} {n : CStr} (h : Shape m.arena L) (hk : Named k) :
    n ∈ (view m L).names k ↔ ∃ x, m.Listed k x ∧ m.nameOf k x = n := by
  rw [names_view hk, List.mem_map]
  exact exists_congr fun x => and_congr_left fun _ => h.listed.symm

namespace Registration

variable {g : Registry} {c : Nat} {comp_id : Int} {call : Registration}

theorem kind_named : (call : Registration) → Named call.kind
  | hal_pin_new .. => .inl rfl
  | hal_param_new .. => .inr (.inl rfl)
  | hal_export_funct .. => .inr (.inr rfl)

/-- The structure that the call gets. -/
def new (s : State σ) (call : Registration) : Nat := (s.shm.arena.alloc call.kind).1

theorem new_eq_zero (h : Inv s L) : call.new s = 0 ↔ s.shm.arena.Full call.kind := by
  constructor
  · intro h0
    by_contra hf
    exact (h.good.shape.alloc call.kind_ne_entry call.kind_ne_thread hf).1 h0
  · intro hf
    rw [new, Shape.alloc_full hf]

/-- The call on what the segment holds. -/
def specOf (s : State σ) (L : Lists) (comp_id : Int) (call : Registration) : Int × List Event :=
  call.spec (view s.shm L) s.hal_shmem_base s.shm.lock (call.new s) comp_id

theorem specOf_passed (h : Inv s L) (hp : call.Passes s.hal_shmem_base s.shm.lock)
    (hc : (view s.shm L).Loading comp_id c) :
    call.specOf s L comp_id =
      if s.shm.arena.Full call.kind then (-ENOMEM, [])
      else if call.name ∈ (view s.shm L).names call.kind then (-EINVAL, [])
      else (call.listed, [call.event s.hal_shmem_base (call.new s) c]) := by
  rw [specOf, spec_passed hp hc]
  simp only [new_eq_zero h]

theorem inserts_names (h : Inv s L) : call.Inserts s ↔ call.Passes s.hal_shmem_base s.shm.lock ∧
    ¬ s.shm.arena.Full call.kind ∧ call.name ∉ (view s.shm L).names call.kind := by
  have hfree := mem_names (n := call.name) h.good.shape call.kind_named
  constructor
  · rintro ⟨hp, hf, hn⟩
    refine ⟨hp, hf, fun hm => ?_⟩
    obtain ⟨x, hx, e⟩ := hfree.mp hm
    exact hn x hx e
  · rintro ⟨hp, hf, hn⟩
    exact ⟨hp, hf, fun x hx e => hn (hfree.mpr ⟨x, hx, e⟩)⟩

/-- The events of a call are one, or none. -/
theorem inserts_iff (call : Registration) (h : Inv s L) (hc : (view s.shm L).Loading comp_id c) :
    (call.Inserts s ∧
        call.specOf s L comp_id = (call.listed, [call.event s.hal_shmem_base (call.new s) c])) ∨
      (¬ call.Inserts s ∧ (call.specOf s L comp_id).2 = []) := by
  rw [inserts_names h]
  by_cases hp : call.Passes s.hal_shmem_base s.shm.lock
  swap
  · obtain ⟨e, he⟩ := spec_refused hp
    refine .inr ⟨fun hi => hp hi.1, ?_⟩
    rw [specOf, he]
  rw [specOf_passed h hp hc]
  by_cases hf : s.shm.arena.Full call.kind
  · rw [if_pos hf]
    exact .inr ⟨fun hi => hi.2.1 hf, rfl⟩
  rw [if_neg hf]
  by_cases hn : call.name ∈ (view s.shm L).names call.kind
  · rw [if_pos hn]
    exact .inr ⟨fun hi => hi.2.2 hn, rfl⟩
  · rw [if_neg hn]
    exact .inl ⟨⟨hp, hf, hn⟩, rfl⟩

/-- Its events are of the component. -/
theorem specOf_for (h : Inv s L) (hc : (view s.shm L).Loading comp_id c) :
    ∀ ev ∈ (call.specOf s L comp_id).2, ev.For c := by
  rcases inserts_iff call h hc with ⟨-, e⟩ | ⟨-, e⟩
  · rw [e]
    intro ev hev
    obtain rfl := List.mem_singleton.mp hev
    exact call.event_for _ _ _
  · rw [e]
    exact fun _ hev => absurd hev List.not_mem_nil

/-- A function that would be listed. -/
theorem Inserts.publishes {name : CStr} {funct arg : Addr} {uses_fp reentrant : Int}
    (hi : (hal_export_funct name funct arg uses_fp reentrant).Inserts s) (h : Inv s L)
    (hc : (view s.shm L).Loading comp_id c) : ∃ c, Publishes s name comp_id c := by
  rcases export_funct_cases h name funct arg uses_fp reentrant comp_id with
    ⟨-, -, hnil⟩ | ⟨c', hpub, -⟩
  · rcases inserts_iff _ h hc with ⟨-, hevent⟩ | ⟨hni, -⟩
    · have hnil : ((hal_export_funct name funct arg uses_fp reentrant).specOf s L comp_id).2 = [] :=
        hnil
      rw [hevent] at hnil
      exact absurd hnil (List.cons_ne_nil _ _)
    · exact absurd hi hni
  · exact ⟨c', hpub⟩

/-! ### The memory a call leaves -/

/-- A structure that was had is listed or idle. -/
theorem run_spare (h : Inv s L) (hc : (view s.shm L).Loading comp_id c)
    (hp : call.Passes s.hal_shmem_base s.shm.lock) (hroom : ¬ s.shm.arena.Full call.kind) :
    Wp (call.run comp_id) s
      (fun _ s' => call.Inserts s ∨ (s'.shm.arena.pool call.kind).free_ptr ≠ 0)
      fun _ _ => True := by
  have hE : -EINVAL ≠ 0 := by decide
  have hspec := specOf_passed h hp hc
  rw [if_neg hroom] at hspec
  -- what is not inserted is refused for its name
  have hcode : ∀ r : Int, r = (call.specOf s L comp_id).1 → r = 0 → call.Inserts s := by
    intro r hr h0
    rcases inserts_iff call h hc with ⟨hi, -⟩ | ⟨-, hnil⟩
    · exact hi
    · rw [hspec] at hr hnil
      split_ifs at hr hnil
      exact absurd (hr.symm.trans h0) hE
  obtain ⟨comp, hf, hr, hu⟩ := hc
  cases call with
  | hal_pin_new name type data_ptr_addr =>
      obtain ⟨ht, hn, hl, hin⟩ := hp
      refine (hal_pin_new_spec h name type data_ptr_addr comp_id).with_eq.mono
        (fun r s' hpost => ?_) fun _ _ _ => trivial
      obtain ⟨hok, -, ⟨hr', _⟩, _⟩ := hpost
      refine ((hal_pin_new_spare h hf hr hl hn ht hin hroom).of_ok hok).imp ?_ id
      exact hcode r hr'
  | hal_param_new name type dir data_addr =>
      obtain ⟨ht, hd, hn, hl, hin⟩ := hp
      have hrun := (hal_param_new_refines h name type dir data_addr comp_id).with_eq
      refine (Returns.to_wp hrun).mono (fun r s' hpost => ?_) fun _ _ => id
      obtain ⟨hok, hr', _⟩ := hpost
      refine ((hal_param_new_spare h hf hr hl hn ht hd hin hroom).of_ok hok).imp ?_ id
      exact hcode r hr'
  | hal_export_funct name funct arg uses_fp reentrant =>
      obtain ⟨hn, hl⟩ := hp
      show Wp (Hal.hal_export_funct name funct arg uses_fp reentrant comp_id) _ _ _
      unfold Hal.hal_export_funct
      simp only [wp_bind, wp_get]
      refine .ite (fun h₀ => absurd h₀ h.attached) fun _ => .ite (fun hn' => absurd hn' hn) fun _ =>
        .ite (fun hl' => absurd hl' hl) fun _ => ?_
      rw [wp_bind]
      have hmade := (export_funct_new_made h hn hl funct arg uses_fp reentrant comp_id).with_eq
      refine (Returns.to_wp hmade).mono (fun made s₁ hpost => ?_) fun _ _ => id
      obtain ⟨hok, hmade⟩ := hpost
      have hspare := (export_funct_new_spare h name funct arg hf hr hu hroom).of_ok hok
      cases hmade with
      | refused _ he _ _ _ => exact .inr (hspare.resolve_left he)
      | listed hpub _ _ _ _ _ _ _ =>
          refine .of_forall (fun _ _ => .inl ⟨⟨hn, hl⟩, hroom, hpub.free⟩) fun _ _ => trivial

/-! ### A call that registers no pin -/

/-- **A function without its pin.**  Its call is its `spec`; if the pin had a name, there is no
memory for pins. -/
theorem hal_export_funct_unpinned (h : Inv s L) (hc : (view s.shm L).Loading comp_id c)
    {name : CStr} {funct arg : Addr} {uses_fp reentrant : Int}
    (hno : ¬ (hal_export_funct name funct arg uses_fp reentrant).Pins s) :
    Returns (Hal.hal_export_funct name funct arg uses_fp reentrant comp_id) s fun r s' =>
      Refines s L ((hal_export_funct name funct arg uses_fp reentrant).specOf s L comp_id) r s' ∧
        ((hal_export_funct name funct arg uses_fp reentrant).Inserts s →
          (hal_export_funct name funct arg uses_fp reentrant).PinNamed s.shm →
          s'.shm.arena.Full .pin) := by
  set call := hal_export_funct name funct arg uses_fp reentrant with hcall
  have hspec : call.specOf s L comp_id =
    spec (view s.shm L) s.hal_shmem_base s.shm.lock (new_funct s) comp_id call := rfl
  unfold Hal.hal_export_funct
  simp only [returns_bind, returns_get]
  refine .ite (fun h₀ => absurd h₀ h.attached) fun _ => ?_
  refine .ite (fun hn => ⟨.same h ?_, fun hi => absurd hn hi.passes.1⟩) fun hn => ?_
  · rw [hspec, spec, Registry.export_funct, if_pos hn]
    rfl
  refine .ite (fun hl => ⟨.same h ?_, fun hi => absurd hl hi.passes.2⟩) fun hl => ?_
  · rw [hspec, spec, Registry.export_funct, if_neg hn, if_pos hl]
    rfl
  rw [returns_bind]
  refine (export_funct_new_made h hn hl funct arg uses_fp reentrant comp_id).mono
    fun made s₁ hmade => ?_
  cases hmade with
  | @refused e _ L₁ hnone he hmade hm hs =>
      have hnil : call.specOf s L comp_id = (e, []) := by
        rw [hspec, hcall, spec, hmade]
        simp only [if_neg he]
      refine ⟨?_, fun hi => ?_⟩
      · rw [hnil]
        exact ⟨rfl, L₁, hm, hs⟩
      · rcases inserts_iff _ h hc with ⟨-, hevent⟩ | ⟨hni, -⟩
        · exact absurd (congrArg Prod.snd (hnil.symm.trans hevent)) (List.cons_ne_nil _ _).symm
        · exact absurd hi hni
  | @listed c' f _ L₁ hpub hfound hname howner hmade hm hs hb =>
      have hevent : call.specOf s L comp_id = (-EINVAL, [.addFunct (new_funct s) f]) := by
        rw [hspec, hcall, spec, hmade]
        rfl
      have hunfit : ¬ PinFits s name := fun hf => hno ⟨⟨⟨hn, hl⟩, hpub.room, hpub.free⟩, hf⟩
      have hfound₁ : (view s₁.shm L₁).findComp comp_id = some (c', s.shm.comp c') := by
        rw [hm.events]
        exact hfound
      have hpins : (view s₁.shm L₁).pins = (view s.shm L).pins := by rw [hm.events]; rfl
      refine (export_funct_pins_found hm.inv hfound₁ hpub.unready (hm.lock.symm ▸ hl) name
        hm.added_funct).with_eq.mono fun r s₂ hpost => ?_
      obtain ⟨hrun, hs₂⟩ := hpost
      obtain ⟨_, _, hen⟩ :=
        (export_funct_pins_enrolled hm.inv name hm.added_funct comp_id).of_ok hrun
      rcases hs₂ with ⟨-, rfl, L₂, h₂⟩ | ⟨hyes, -⟩
      swap
      · exact absurd ((pin_fits_behind name h hpins hb).mp hyes) hunfit
      rw [hevent]
      refine ⟨⟨rfl, L₂, hm.trans h₂, hs.trans hen.still⟩, fun _ hnamed => ?_⟩
      -- the pin was refused for its memory, and it is still out
      have hfull : (s.shm.arena.alloc .funct).2.Full .pin :=
        Decidable.by_contra fun hroom => hunfit ⟨hnamed.1, hnamed.2, hroom⟩
      have hlen : (L₁.act .pin).length = (L₂.act .pin).length := by
        have hp : (view s₂.shm L₂).pins.length = (view s₁.shm L₁).pins.length := by
          rw [h₂.events]
          rfl
        simpa [view, tab] using hp.symm
      exact hm.inv.good.shape.full_of_grown h₂.inv.good.shape (by decide) (hm.inv.idle _)
        (h₂.inv.idle _) hen.still.grown hlen.le ((hb.full _).mpr hfull)

/-- The process can read what the call reads. -/
def Reads (s : State σ) : Registration → Prop
  | hal_pin_new _ _ data_ptr_addr => s.Reads data_ptr_addr
  | _ => True

/-- **A call that registers no pin.**  It returns where the cell it is given can be read. -/
theorem run_spec (h : Inv s L) (hc : (view s.shm L).Loading comp_id c) (hno : ¬ call.Pins s) :
    Wp (call.run comp_id) s (fun r s' => call.Reads s ∧
      Refines s L (call.specOf s L comp_id) r s' ∧
      (call.Inserts s → call.PinNamed s.shm → s'.shm.arena.Full .pin))
      fun _ _ => ¬ call.Reads s := by
  cases call with
  | hal_pin_new name type data_ptr_addr =>
      exact (hal_pin_new_spec h name type data_ptr_addr comp_id).mono
        (fun r s' ⟨hread, hr, _⟩ => ⟨hread, hr, fun _ hn => hn.elim⟩) fun _ _ => And.right
  | hal_param_new name type dir data_addr =>
      exact (hal_param_new_refines h name type dir data_addr comp_id).to_wp.mono
        (fun r s' hr => ⟨trivial, hr, fun _ hn => hn.elim⟩) fun _ _ => id
  | hal_export_funct name funct arg uses_fp reentrant =>
      exact (hal_export_funct_unpinned h hc hno).to_wp.mono (fun _ _ hr => ⟨trivial, hr⟩)
        fun _ _ => id

/-- A call that gets a structure leaves more of them than were in use. -/
theorem run_carves (h : Inv s L) (hc : (view s.shm L).Loading comp_id c) (hno : ¬ call.Pins s)
    (hp : call.Passes s.hal_shmem_base s.shm.lock) (hroom : ¬ s.shm.arena.Full call.kind) :
    Wp (call.run comp_id) s (fun _ s' =>
      (L.act call.kind).length < (s'.shm.arena.carved call.kind).length) fun _ _ => True := by
  refine (run_spec h hc hno).with_eq.mono (fun r s' ⟨hrun, _, ⟨_, L', hm, _⟩, _⟩ => ?_)
    fun _ _ _ => trivial
  have hspare := (run_spare h hc hp hroom).of_ok hrun
  have hshape := hm.inv.good.shape
  have hlen := names_length (m := s.shm) (L := L) call.kind_named
  have hlen' := names_length (m := s'.shm) (L := L') call.kind_named
  rcases inserts_iff call h hc with ⟨-, e⟩ | ⟨hni, e⟩
  · rw [hm.events, e, Registry.applyAll_cons, Registry.applyAll_nil, names_event, if_pos rfl,
      enter_perm.length_eq, List.length_cons, hlen] at hlen'
    have := hshape.act_le call.kind_ne_entry
    omega
  · rw [hm.events, e, Registry.applyAll_nil, hlen] at hlen'
    have := hshape.lt_of_idle call.kind_ne_entry (hspare.resolve_left hni)
    omega

/-- A call on a component of which nothing else is done. -/
theorem run_enrolled (h : Inv s L) (call : Registration) (comp_id : Int) :
    Wp (call.run comp_id) s (fun _ s' => ∃ evs L', Enrolled s L comp_id evs s' L')
      fun _ _ => True := by
  cases call with
  | hal_pin_new name type data_ptr_addr =>
      refine (hal_pin_new_spec h name type data_ptr_addr comp_id).mono
        (fun _ _ ⟨_, hr, _⟩ => ?_) fun _ _ _ => trivial
      exact ⟨_, hr.enrolled comp_id fun ev hev => Registry.pin_new_for hev⟩
  | hal_param_new name type dir data_addr =>
      refine Returns.to_wp ((hal_param_new_refines h name type dir data_addr comp_id).mono
        fun _ _ hr => ?_)
      exact ⟨_, hr.enrolled comp_id fun ev hev => Registry.param_new_for hev⟩
  | hal_export_funct name funct arg uses_fp reentrant =>
      exact (hal_export_funct_enrolled h name funct arg uses_fp reentrant comp_id).to_wp

/-- **A call that registers a pin.**  There is one more. -/
theorem run_pins (h : Inv s L) (hc : (view s.shm L).Loading comp_id c) (hp : call.Pins s) :
    Wp (call.run comp_id) s (fun _ s' => ∃ L', Inv s' L' ∧
      (view s'.shm L').pins.length = (view s.shm L).pins.length + 1) fun _ _ => True := by
  have hevent : call.specOf s L comp_id =
      (call.listed, [call.event s.hal_shmem_base (call.new s) c]) := by
    rcases inserts_iff call h hc with ⟨-, e⟩ | ⟨hni, -⟩
    · exact e
    · exact absurd hp.1 hni
  cases call with
  | hal_param_new name type dir data_addr => exact hp.2.elim
  | hal_pin_new name type data_ptr_addr =>
      refine (hal_pin_new_spec h name type data_ptr_addr comp_id).mono
        (fun r s' ⟨_, hr, _⟩ => ?_) fun _ _ _ => trivial
      have hr : Refines s L ((hal_pin_new name type data_ptr_addr).specOf s L comp_id) r s' := hr
      rw [hevent] at hr
      obtain ⟨-, L', hm, -⟩ := hr
      refine ⟨L', hm.inv, ?_⟩
      rw [hm.events]
      exact enter_perm.length_eq
  | hal_export_funct name funct arg uses_fp reentrant =>
      obtain ⟨hi, hfits⟩ := hp
      refine Returns.to_wp ((hal_export_funct_exported h name funct arg uses_fp reentrant
        comp_id).mono fun r s' he => ?_)
      cases he with
      | refused hnone _ _ =>
          -- the function would be listed
          obtain ⟨c', hpub⟩ := hi.publishes h hc
          exact absurd hpub (hnone c')
      | unpinned _ hno _ _ => exact absurd hfits hno
      | @done _ L' c' x f p evs₁ evs₂ _ _ _ _ _ _ _ _ hg hm =>
          refine ⟨L', hm.inv, ?_⟩
          have hkeep : (view s'.shm L').pins =
              enter (NameLt Pin.name) (x, p) (view s.shm L).pins := by
            obtain ⟨⟨x₁, ha₁⟩, x₂, ha₂⟩ := hg
            rw [hm.events]
            rcases ha₁ with ⟨-, rfl⟩ | ⟨-, rfl⟩ <;> rcases ha₂ with ⟨-, rfl⟩ | ⟨-, rfl⟩
            all_goals rfl
          rw [hkeep]
          exact enter_perm.length_eq

end Registration

end RTS.Hal

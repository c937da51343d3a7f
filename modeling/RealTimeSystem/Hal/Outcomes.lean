import RealTimeSystem.Hal.Abstract

/-!
# HAL — what an operation of the registry can do

One lemma for each of the operations that register a pin, a parameter or a function: it is refused,
or it makes one event, of which the lemma says what was checked.
-/

namespace RTS.Hal.Registry

variable {g : Registry} {base : Addr} {lock : UInt8} {new : Nat} {comp_id : Int}

/-- The operation is refused, or it makes an event that `P` allows. -/
def Makes (x : Int × List Event) (P : Event → Prop) : Prop :=
  (x.1 < 0 ∧ x.2 = []) ∨ (x.1 = 0 ∧ ∃ ev, x.2 = [ev] ∧ P ev)

theorem Makes.refused {r : Int} {P : Event → Prop} (hr : r < 0 := by decide) : Makes (r, []) P :=
  .inl ⟨hr, rfl⟩

theorem Makes.unless {q : Prop} [Decidable q] {r : Int} {x : Int × List Event} {P : Event → Prop}
    (h : ¬ q → Makes x P) (hr : r < 0 := by decide) : Makes (if q then (r, []) else x) P := by
  by_cases hq : q
  · rw [if_pos hq]
    exact .refused hr
  · rw [if_neg hq]
    exact h hq

theorem Makes.mono {x : Int × List Event} {P Q : Event → Prop} (h : Makes x P)
    (hpq : ∀ ev, P ev → Q ev) : Makes x Q :=
  h.imp id fun ⟨h₀, ev, he, hp⟩ => ⟨h₀, ev, he, hpq ev hp⟩

theorem makes_one {ev : Event} {P : Event → Prop} (h : P ev) : Makes (0, [ev]) P :=
  .inr ⟨rfl, ev, rfl, h⟩

/-- The component that may register. -/
def Registers (g : Registry) (comp_id : Int) (x : Nat) : Prop :=
  ∃ comp, g.findComp comp_id = some (x, comp) ∧ comp.ready = 0

theorem register_makes {inShm : Bool} {taken : Prop} [Decidable taken] {event : Nat → Event} :
    Makes (g.register comp_id inShm new taken event) fun ev =>
      ¬ taken ∧ ∃ x, g.Registers comp_id x ∧ ev = event x := by
  unfold register
  rcases hf : g.findComp comp_id with _ | ⟨x, comp⟩
  · exact .refused
  · refine .unless fun _ => .unless fun hr => .unless fun _ => .unless fun ht => ?_
    exact makes_one ⟨ht, x, ⟨comp, hf, Decidable.not_not.mp hr⟩, rfl⟩

/-- A pin that comes. -/
def PinComes (g : Registry) (comp_id : Int) (name : CStr) (type : HalType) (ev : Event) : Prop :=
  ∃ x y p, g.Registers comp_id x ∧ (∀ q ∈ g.pins, q.2.name ≠ name) ∧ ev = .addPin y p ∧
    p.name = name ∧ p.type = type ∧ p.owner_ptr = x

theorem pin_new_makes {type : HalType} {data_ptr_addr : Addr} {name : CStr} :
    Makes (g.pin_new base lock new name type data_ptr_addr comp_id) (g.PinComes comp_id name type) := by
  unfold pin_new
  refine .unless fun _ => .unless fun hlen => .unless fun _ => ?_
  rw [rt_snprintf_short hlen]
  refine register_makes.mono ?_
  rintro ev ⟨ht, x, hx, rfl⟩
  exact ⟨x, _, _, hx, fun q hq e => ht ⟨q, hq, e⟩, rfl, rfl, rfl, rfl⟩

theorem pin_newf_makes {type : HalType} {data_ptr_addr : Addr} {name : CStr} :
    Makes (g.pin_newf base lock new type data_ptr_addr comp_id name)
      (g.PinComes comp_id name type) := by
  refine .unless fun hlen => ?_
  rw [rt_snprintf_short hlen]
  exact pin_new_makes

/-- A parameter that comes. -/
def ParamComes (g : Registry) (comp_id : Int) (name : CStr) (ev : Event) : Prop :=
  ∃ x y p, g.Registers comp_id x ∧ ev = .addParam y p ∧ p.name = name ∧ p.owner_ptr = x

theorem param_new_makes {type : HalType} {dir : ParamDir} {data_addr : Addr} {name : CStr} :
    Makes (g.param_new base lock new name type dir data_addr comp_id) (g.ParamComes comp_id name) := by
  unfold param_new
  refine .unless fun _ => .unless fun _ => .unless fun hlen => .unless fun _ => ?_
  refine register_makes.mono ?_
  rintro ev ⟨-, x, hx, rfl⟩
  exact ⟨x, _, _, hx, rfl, rt_snprintf_short hlen, rfl⟩

/-- A function that comes. -/
def FunctComes (g : Registry) (new : Nat) (comp_id : Int) (name : CStr) (funct : Addr) (ev : Event) :
    Prop :=
  ∃ x f, g.Registers comp_id x ∧ new ≠ 0 ∧ (∀ p ∈ g.functs, p.2.name ≠ name) ∧
    ev = .addFunct new f ∧ f.name = name ∧ f.funct = funct ∧ f.owner_ptr = x ∧ f.users = 0

theorem export_funct_makes {name : CStr} {funct arg : Addr} {uses_fp reentrant : Int} :
    Makes (g.export_funct lock new name funct arg uses_fp reentrant comp_id)
      (g.FunctComes new comp_id name funct) := by
  unfold export_funct
  refine .unless fun hlen => .unless fun _ => ?_
  rw [rt_snprintf_short hlen]
  rcases hf : g.findComp comp_id with _ | ⟨x, comp⟩
  · exact .refused
  · refine .unless fun _ => .unless fun hr => .unless fun h₀ => .unless fun ht => ?_
    exact makes_one ⟨x, _, ⟨comp, hf, Decidable.not_not.mp hr⟩, h₀, fun p hp e => ht ⟨p, hp, e⟩, rfl,
      rfl, rfl, rfl, rfl⟩

end RTS.Hal.Registry

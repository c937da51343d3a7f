import RealTimeSystem.Support.Lock
import RealTimeSystem.Support.Steps
import Mathlib.Algebra.Order.Ring.Int
import Mathlib.Tactic.SplitIfs

/-!
# ExampleTask — the command channel

`ExampleTaskGuard::send_command` and `taskCommandHandler`, any number of either, on one
`task_shared_t`, to which `taskShared` points.  Each access to the channel is one action.

The channel has one slot: `head` counts the commands put into it, and the handler sets `tail` to
`head`.
-/

namespace RTS.ExampleTask

open RTS.Support

/-! ### The two functions -/

/-- `TASK_CMD_…` -/
inductive CommandId where
  | none | set_target | enable | disable | pause | resume | set_pll | shutdown
  deriving DecidableEq

structure Command where
  id : CommandId
  data : BitVec 32
  deriving DecidableEq

/-- The command channel of `task_shared_t`, zero-filled by default; of the mutex, the bit that is
tested and set. -/
structure Shared where
  command_mutex : Bool := false
  head : BitVec 32 := 0
  tail : BitVec 32 := 0
  command_id : CommandId := .none
  command_data : BitVec 32 := 0

/-- What the handler asks of RTAPI. -/
inductive Request where
  | task_pause (task_id : Int) | task_resume (task_id : Int) | pll_set_correction (value : Int)
  deriving DecidableEq

/-- What a command reaches: the input pins, where `taskHalData` has them, and RTAPI. -/
structure Board where
  target_pos : Option (BitVec 32)
  enable_in : Option Bool
  requests : List Request := []
  deriving DecidableEq

/-- The `switch` of the handler; `self` is `rtapi_task_self ()`. -/
def process (self : Int) (b : Board) (c : Command) : Board :=
  match c.id with
  | .set_target => { b with target_pos := b.target_pos.map fun _ => c.data }
  | .enable => { b with enable_in := b.enable_in.map fun _ => true }
  | .disable => { b with enable_in := b.enable_in.map fun _ => false }
  | .pause => if self ≥ 0 then { b with requests := .task_pause self :: b.requests } else b
  | .resume => if self ≥ 0 then { b with requests := .task_resume self :: b.requests } else b
  | .set_pll => { b with requests := .pll_set_correction c.data.toInt :: b.requests }
  | .shutdown => b
  | .none => b

/-- Where a thread is: in neither function, at an access of `send_command`, at one of the handler,
or before the `rtapi_mutex_give` of either. -/
inductive Place where
  | idle
  | getting (c : Command) | store_id (c : Command) | store_data (c : Command)
  | advance (c : Command)
  | trying | compare | load_id | load_data (id : CommandId) | processing (c : Command) | consume
  | giving
  deriving DecidableEq

/-- The places between the taking of the mutex and `rtapi_mutex_give`. -/
def Place.inside : Place → Prop
  | .idle => False
  | .getting _ => False
  | .trying => False
  | _ => True

/-- `rtapi_mutex_get` of `send_command`. -/
def Place.wants : Place → Bool
  | .getting _ => true
  | _ => false

/-- Threads `I` on a channel, the commands sent and those processed. -/
structure Channel (I : Type) where
  shared : Shared := {}
  place : I → Place := fun _ => .idle
  board : Board
  sent : List Command := []
  processed : List Command := []

/-- A thread calls `send_command`, or the handler runs in it, or it makes its next access. -/
inductive Move where
  | send_command (c : Command) | taskCommandHandler | access
  deriving DecidableEq

namespace Channel

variable {I : Type}

section
variable [DecidableEq I]

def goto (s : Channel I) (i : I) (p : Place) : Channel I :=
  { s with place := Function.update s.place i p }

def access (self : Int) (i : I) (s : Channel I) : Option (Channel I) :=
  match s.place i with
  | .idle => none
  | .getting c =>
      if s.shared.command_mutex then some s
      else some ({ s with shared.command_mutex := true }.goto i (.store_id c))
  | .store_id c => some ({ s with shared.command_id := c.id }.goto i (.store_data c))
  | .store_data c => some ({ s with shared.command_data := c.data }.goto i (.advance c))
  | .advance c =>
      some ({ s with shared.head := s.shared.head + 1, sent := s.sent ++ [c] }.goto i .giving)
  | .trying =>
      if s.shared.command_mutex then some (s.goto i .idle)
      else some ({ s with shared.command_mutex := true }.goto i .compare)
  | .compare => some (s.goto i (if s.shared.head ≠ s.shared.tail then .load_id else .giving))
  | .load_id => some (s.goto i (.load_data s.shared.command_id))
  | .load_data id => some (s.goto i (.processing ⟨id, s.shared.command_data⟩))
  | .processing c =>
      some ({ s with
        board := process self s.board c, processed := s.processed ++ [c] }.goto i .consume)
  | .consume => some ({ s with shared.tail := s.shared.head }.goto i .giving)
  | .giving => some ({ s with shared.command_mutex := false }.goto i .idle)

def step (self : Int) : I × Move → Channel I → Option (Channel I)
  | (i, .send_command c), s => if s.place i = .idle then some (s.goto i (.getting c)) else none
  | (i, .taskCommandHandler), s => if s.place i = .idle then some (s.goto i .trying) else none
  | (i, .access), s => s.access self i

end

/-! ### Nothing is lost -/

/-- What is processed was sent before, in the same order, and all of it when nothing is pending. -/
def Delivered (s : Channel I) : Prop :=
  s.processed <+: s.sent ∧ (s.shared.head = s.shared.tail → s.processed = s.sent)

/-- `send_command` takes the mutex only while no command is pending. -/
def Spaced (s : Channel I) (a : I × Move) : Prop :=
  a.2 = .access → (s.place a.1).wants → s.shared.command_mutex = false →
    s.shared.head = s.shared.tail

instance (s : Channel I) (a : I × Move) : Decidable (Spaced s a) :=
  inferInstanceAs (Decidable (_ → _ → _ → _))

/-- Nothing is pending, and all is processed. -/
def Empty (s : Channel I) : Prop := s.shared.head = s.shared.tail ∧ s.processed = s.sent

/-- A command is pending, and the last one sent is not processed. -/
def Pending (s : Channel I) (c : Command) : Prop :=
  s.shared.head = s.shared.tail + 1 ∧ s.sent = s.processed ++ [c]

/-- The channel with no one inside: empty, or its command is in the slot. -/
def Rests (s : Channel I) : Prop :=
  s.Empty ∨ s.Pending ⟨s.shared.command_id, s.shared.command_data⟩

/-- The channel with a thread inside. -/
def At (s : Channel I) : Place → Prop
  | .store_id _ => s.Empty
  | .store_data c => s.Empty ∧ s.shared.command_id = c.id
  | .advance c => s.Empty ∧ s.shared.command_id = c.id ∧ s.shared.command_data = c.data
  | .compare => s.Rests
  | .load_id => s.Pending ⟨s.shared.command_id, s.shared.command_data⟩
  | .load_data id => s.Pending ⟨id, s.shared.command_data⟩
  | .processing c => s.Pending c
  | .consume => s.shared.head = s.shared.tail + 1 ∧ s.processed = s.sent
  | .giving => s.Rests
  | _ => True

def Inv (s : Channel I) : Prop :=
  Guards s.shared.command_mutex s.place Place.inside s.Rests s.At

variable {s s' : Channel I} {self : Int} {i : I} {c : Command}

theorem Empty.delivered (h : s.Empty) : s.Delivered :=
  ⟨h.2 ▸ List.prefix_rfl, fun _ => h.2⟩

theorem Pending.ne (h : s.Pending c) : s.shared.head ≠ s.shared.tail := by
  intro he
  have hne := h.1
  rw [he] at hne
  simp at hne

theorem Pending.delivered (h : s.Pending c) : s.Delivered :=
  ⟨h.2 ▸ List.prefix_append _ _, fun he => absurd he h.ne⟩

theorem Rests.delivered (h : s.Rests) : s.Delivered := h.elim Empty.delivered Pending.delivered

/-- A thread inside sees a channel that has lost nothing. -/
theorem At.delivered {p : Place} (hp : p.inside) (h : s.At p) : s.Delivered := by
  cases p with
  | idle | getting _ | trying => exact hp.elim
  | store_id c => exact Empty.delivered h
  | store_data c => exact h.1.delivered
  | advance c => exact h.1.delivered
  | compare => exact Rests.delivered h
  | load_id => exact Pending.delivered h
  | load_data id => exact Pending.delivered h
  | processing c => exact Pending.delivered h
  | consume => exact ⟨h.2 ▸ List.prefix_rfl, fun _ => h.2⟩
  | giving => exact Rests.delivered h

theorem Inv.delivered (h : s.Inv) : s.Delivered := by
  cases hm : s.shared.command_mutex with
  | false => exact (h.free hm).delivered
  | true =>
      obtain ⟨i, hi⟩ := h.held hm
      exact At.delivered hi (h.at_place i hi)

theorem start_inv (b : Board) : Inv (I := I) { board := b } where
  free _ := .inl ⟨rfl, rfl⟩
  empty _ _ := id
  held h := Bool.noConfusion h
  one _ _ hi := hi.elim
  at_place _ hi := hi.elim

/-! ### One access -/

theorem Inv.here (h : s.Inv) {p : Place} (hp : s.place i = p) (hin : p.inside) :
    (s.place i).inside ∧ s.At p :=
  ⟨hp ▸ hin, hp ▸ Guards.at_place h i (hp ▸ hin)⟩

variable [DecidableEq I]

theorem Inv.access (h : s.Inv) (hc : s.Spaced (i, .access)) (ha : s.access self i = some s') :
    s'.Inv := by
  unfold Channel.access at ha
  cases hp : s.place i with simp only [hp] at ha
  | idle => cases ha
  | getting c =>
      split_ifs at ha with hm
      · cases ha
        exact h
      · cases ha
        rw [Bool.not_eq_true] at hm
        -- the mutex is free, so no command is pending
        have hempty : s.Empty :=
          (h.free hm).elim id fun hpend => absurd (hc rfl (hp ▸ rfl) hm) hpend.ne
        unfold Inv at h
        rw [hm] at h
        exact h.acquire trivial hempty
  | trying =>
      split_ifs at ha with hm
      · cases ha
        exact h.outside (by rw [hp]; exact id) id
      · cases ha
        rw [Bool.not_eq_true] at hm
        have hrests := h.free hm
        unfold Inv at h
        rw [hm] at h
        exact h.acquire trivial hrests
  | store_id c =>
      obtain ⟨hin, hat⟩ := h.here hp trivial
      cases ha
      exact h.within hin trivial ⟨hat, rfl⟩
  | store_data c =>
      obtain ⟨hin, hat⟩ := h.here hp trivial
      cases ha
      exact h.within hin trivial ⟨hat.1, hat.2, rfl⟩
  | advance c =>
      obtain ⟨hin, ⟨⟨heq, hall⟩, hid, hdata⟩⟩ := h.here hp trivial
      cases ha
      refine h.within hin trivial (.inr ⟨?_, ?_⟩)
      · exact congrArg (· + 1) heq
      · show s.sent ++ [c] = s.processed ++ [⟨s.shared.command_id, s.shared.command_data⟩]
        rw [hall, hid, hdata]
  | compare =>
      obtain ⟨hin, hat⟩ := h.here hp trivial
      cases ha
      split_ifs with hne
      · exact h.within hin trivial (hat.resolve_left fun he => hne he.1)
      · exact h.within hin trivial hat
  | load_id =>
      obtain ⟨hin, hat⟩ := h.here hp trivial
      cases ha
      exact h.within hin trivial hat
  | load_data id =>
      obtain ⟨hin, hat⟩ := h.here hp trivial
      cases ha
      exact h.within hin trivial hat
  | processing c =>
      obtain ⟨hin, hat⟩ := h.here hp trivial
      cases ha
      exact h.within hin trivial ⟨hat.1, hat.2.symm⟩
  | consume =>
      obtain ⟨hin, hat⟩ := h.here hp trivial
      cases ha
      exact h.within hin trivial (.inl ⟨rfl, hat.2⟩)
  | giving =>
      obtain ⟨hin, hat⟩ := h.here hp trivial
      cases ha
      exact h.release hin id hat

theorem Inv.step {a : I × Move} (h : s.Inv) (hc : s.Spaced a) (ha : step self a s = some s') :
    s'.Inv := by
  obtain ⟨i, m⟩ := a
  have hcall : ∀ {p : Place}, ¬ p.inside → s.place i = .idle → (s.goto i p).Inv :=
    fun hp hi => h.outside (by rw [hi]; exact id) hp
  cases m with
  | send_command c =>
      obtain ⟨hi, heq⟩ := Option.ite_none_right_eq_some.mp ha
      exact Option.some.inj heq ▸ hcall id hi
  | taskCommandHandler =>
      obtain ⟨hi, heq⟩ := Option.ite_none_right_eq_some.mp ha
      exact Option.some.inj heq ▸ hcall id hi
  | access => exact h.access hc ha

/-! ### Runs -/

/-- **No command is lost**, where each sender finds the channel empty. -/
theorem commands_delivered (self : Int) (b : Board)
    (h : Reached (step self) Spaced { board := b } s) : s.Delivered :=
  (h.invariant (start_inv b) fun _ _ _ hi hc ha => hi.step hc ha).delivered

/-- A thread that sends the command, undisturbed. -/
def sends (i : I) (c : Command) : List (I × Move) :=
  (i, .send_command c) :: List.replicate 5 (i, .access)

/-- A cycle of the handler with a command pending, undisturbed. -/
def cycle (i : I) : List (I × Move) :=
  (i, .taskCommandHandler) :: List.replicate 7 (i, .access)

def setTarget (n : BitVec 32) : Command := ⟨.set_target, n⟩

/-- The pins of `hal_malloc`, no command sent yet. -/
def fresh : Channel Bool := { board := { target_pos := some 0, enable_in := some false } }

theorem commands_delivered_sample : ∃ s,
    acted (step 0) (sends false (setTarget 7) ++ cycle true ++ sends false (setTarget 8) ++
      cycle true) fresh = some s ∧
    s.processed = [setTarget 7, setTarget 8] ∧ s.Delivered := by
  have hrun : acted (step 0) (sends false (setTarget 7) ++ cycle true ++
      sends false (setTarget 8) ++ cycle true) fresh = some _ := rfl
  exact ⟨_, hrun, rfl, commands_delivered 0 fresh.board (.of_acted hrun (by decide))⟩

/-- Of two commands sent between two cycles, the first is overwritten. -/
theorem sentTwice_lost : ¬ ∀ (self : Int) (b : Board) (s : Channel Bool),
    Reached (step self) (fun _ _ => True) { board := b } s → s.Delivered := by
  intro h
  have hrun : acted (step 0) (sends false (setTarget 7) ++ sends false (setTarget 8) ++
      cycle true) fresh = some _ := rfl
  have hd := h 0 fresh.board _ (.of_acted hrun (by decide))
  exact absurd hd.1 (by decide)

end Channel

end RTS.ExampleTask

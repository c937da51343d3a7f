import RealTimeSystem.ExampleTask.Commands
import RealTimeSystem.System.Accesses

/-!
# System — the release of the application memory

The real-time thread in its cycle, which tests `threads_running` once and then runs
`taskCommandHandler` and `taskController`, beside a control thread with an `ExampleTaskGuard`.  Each
test of `taskShared` and each access through it is one action; HAL and RTAPI are those of the
repository, a call of theirs one action.

`task_thread_exit` detaches the segment and leaves `taskShared` as it is.
-/

namespace RTS.ExampleTask

open RTS.Support RTS.Hal RTS.Uspace

/-! ### The two threads -/

def TASK_SHM_KEY : Int := 0x54534B31

/-- An access through `taskShared`, with whether the segment was attached; `send_command` returned,
with whether it was called after a `shutdown`. -/
inductive Seen where
  | access (attached : Bool) | sent (late : Bool) (r : Int)
  deriving DecidableEq

def Seen.Proper : Seen → Prop
  | .access attached => attached = true
  | .sent late r => late = true → r = -1

/-- Where the control thread is: in no call, in `send_command`, before the test of `taskShared` in
`print_stats`, before its last `n` reads, and in `shutdown` before the `hal_stop_threads` of
`task_thread_exit`, before `rtapi_shmem_delete`, before `hal_exit`, and past it. -/
inductive Control where
  | idle | sending | print | printing (n : Nat) | exiting | deleting | deregistering | finishing
  deriving DecidableEq

/-- Where the real-time thread is: before the test of `threads_running`, before the test of
`taskShared` in the handler, past it, and at the three tests and the four accesses of the
controller. -/
inductive Realtime where
  | out | handler | handling
  | controller | heartbeat | cycle_count | mirror | load_heartbeat | stamp | store_wakeup
  deriving DecidableEq

/-- The two threads; on the channel the real-time thread is `true`. -/
structure Session where
  hal : State Machine
  emc_shmem_id : Int
  mot_comp_id : Int
  taskShared : Addr
  channel : Channel Bool
  /-- the functions of the component are mounted on the thread -/
  mounted : Bool := true
  owns_ : Bool := true
  started_ : Bool := false
  control : Control := .idle
  realtime : Realtime := .out
  /-- a `shutdown` is over -/
  torn : Bool := false
  seen : List Seen := []

namespace Session

/-- The handle of the application segment is open, and mapped where `taskShared` points. -/
def Attached (s : Session) : Prop :=
  0 ≤ s.emc_shmem_id ∧
    (s.hal.rt.process.shmem_array s.emc_shmem_id.toNat).magic = SHMEM_MAGIC ∧
    (s.hal.rt.process.shmem_array s.emc_shmem_id.toNat).key = TASK_SHM_KEY ∧
    (s.hal.rt.process.shmem_array s.emc_shmem_id.toNat).mem = s.taskShared

instance (s : Session) : Decidable s.Attached := inferInstanceAs (Decidable (_ ∧ _ ∧ _ ∧ _))

def access (s : Session) : Session := { s with seen := .access s.Attached :: s.seen }

/-- `send_command` returns. -/
def returns (s : Session) (r : Int) : Session := { s with seen := .sent s.torn r :: s.seen }

/-- `hal_data->threads_running > 0`, and there is something to run. -/
def Runs (s : Session) : Prop := 0 < s.hal.shm.threads_running ∧ s.mounted

instance (s : Session) : Decidable s.Runs := inferInstanceAs (Decidable (_ ∧ _))

/-- The next function on the thread's ring, once the handler has returned. -/
def next (s : Session) : Realtime := if s.mounted then .controller else .out

/-- An access of the handler; with the command in hand it is not at the channel. -/
def handle (self : Int) (s : Session) : Option Session :=
  (s.channel.access self true).map fun ch =>
    { (match s.channel.place true with
        | .processing _ => s
        | _ => s.access) with
      channel := ch
      realtime := if ch.place true = .idle then s.next else .handling }

def cycle (self : Int) (s : Session) : Option Session :=
  match s.realtime with
  | .out => some (if s.Runs then { s with realtime := .handler } else s)
  | .handler =>
      if s.taskShared = 0 then some { s with realtime := s.next }
      else (Channel.step self (true, .taskCommandHandler) s.channel).map fun ch =>
        { s with channel := ch, realtime := .handling }
  | .handling => s.handle self
  | .controller =>
      some { s with realtime := if s.taskShared = 0 then .mirror else .heartbeat }
  | .heartbeat => some { s.access with realtime := .cycle_count }
  | .cycle_count => some { s.access with realtime := .mirror }
  | .mirror => some { s with realtime := if s.taskShared = 0 then .stamp else .load_heartbeat }
  | .load_heartbeat => some { s.access with realtime := .stamp }
  | .stamp => some { s with realtime := if s.taskShared = 0 then .out else .store_wakeup }
  | .store_wakeup => some { s.access with realtime := .out }

/-- `ExampleTaskGuard::stop`. -/
def stop (s : Session) : Option Session :=
  if ¬ s.started_ then some s
  else
    match hal_stop_threads s.hal with
    | .ok r hal =>
        if r < 0 then some { s with hal := hal } else some { s with hal := hal, started_ := false }
    | .error _ _ => none

/-- `ExampleTaskGuard::start`, up to its `print_stats`. -/
def start (s : Session) : Option Session :=
  if ¬ s.owns_ ∨ s.started_ then some s
  else
    match hal_start_threads s.hal with
    | .ok r hal =>
        if r < 0 then some { s with hal := hal }
        else some { s with hal := hal, started_ := true, control := .print }
    | .error _ _ => none

section
variable (K : Kernel)

/-- The next step of the call the control thread is in. -/
def proceed (self : Int) (s : Session) : Option Session :=
  match s.control with
  | .idle => none
  | .sending =>
      (s.channel.access self false).map fun ch =>
        if ch.place false = .idle then
          { (s.access.returns 0) with channel := ch, control := .idle }
        else { s.access with channel := ch }
  | .print => some { s with control := if s.taskShared = 0 then .idle else .printing 3 }
  | .printing 0 => some { s with control := .idle }
  | .printing (n + 1) => some { s.access with control := .printing n }
  | .exiting =>
      match hal_stop_threads s.hal with
      | .ok _ hal => some { s with hal := hal, control := .deleting }
      | .error _ _ => none
  | .deleting =>
      some { s with
        hal.rt := ((rtapi K).shmem_delete s.emc_shmem_id s.mot_comp_id s.hal.rt).2
        control := .deregistering }
  | .deregistering =>
      match hal_exit (rtapi K) s.mot_comp_id s.hal with
      | .ok _ hal => some { s with hal := hal, mounted := false, control := .finishing }
      | .error _ _ => none
  | .finishing =>
      some { s with owns_ := false, started_ := false, torn := true, control := .idle }

/-- A call of the control thread, a step of it, a step of the real-time thread. -/
inductive Act where
  | start | stop | send_command (c : Command) | print_stats | shutdown | proceed | cycle
  deriving DecidableEq

def call (self : Int) (s : Session) : Act → Option Session
  | .start => s.start
  | .stop => s.stop
  | .send_command c =>
      if s.taskShared = 0 then some (s.returns (-1))
      else (Channel.step self (false, .send_command c) s.channel).map fun ch =>
        { s with channel := ch, control := .sending }
  | .print_stats => some { s with control := .print }
  | .shutdown => if ¬ s.owns_ then some s else s.stop.map ({ · with control := .exiting })
  | .proceed => s.proceed K self
  | .cycle => s.cycle self

def step (self : Int) (a : Act) (s : Session) : Option Session :=
  if a ≠ .proceed ∧ a ≠ .cycle ∧ s.control ≠ .idle then none else s.call K self a

end

/-- What `init` leaves. -/
structure Initialised (s : Session) : Prop where
  keyed : Keyed s.hal.rt.process
  attached : s.Attached
  idle : s.control = .idle
  out : s.realtime = .out
  torn : s.torn = false
  seen : s.seen = []

/-! ### What holds the segment -/

/-- `rtapi_shmem_delete` would drop the last reference. -/
def Detaches (s : Session) : Prop :=
  ¬ 0 < toInt32 ((s.hal.rt.process.shmem_array s.emc_shmem_id.toNat).count - 1)

instance (s : Session) : Decidable s.Detaches := inferInstanceAs (Decidable (¬ _))

/-- `shutdown` detaches the segment only while the real-time thread is out of its functions and the
threads are stopped; no `send_command` comes after a `shutdown`, and no `print_stats` once the
segment is gone. -/
def Careful (s : Session) : Act → Prop
  | .proceed => s.control = .deleting → s.Detaches → s.realtime = .out ∧ ¬ s.Runs
  | .send_command _ => s.torn → s.taskShared = 0
  | .print_stats => ¬ s.Attached → s.taskShared = 0
  | _ => True

instance (s : Session) : (a : Act) → Decidable (Careful s a)
  | .proceed => inferInstanceAs (Decidable (_ → _ → _ ∧ _))
  | .send_command _ => inferInstanceAs (Decidable (_ → _))
  | .print_stats => inferInstanceAs (Decidable (_ → _))
  | .start | .stop | .shutdown | .cycle => .isTrue trivial

variable {K : Kernel} {self : Int} {s s' s₀ : Session} {a : Act}

/-! ### The calls on HAL and RTAPI -/

/-- RTAPI is as before. -/
def SameRt (h h' : State Machine) : Prop := h'.rt = h.rt

instance : Std.Refl SameRt := ⟨fun _ => rfl⟩

instance : IsTrans (State Machine) SameRt := ⟨fun _ _ _ h h' => Eq.trans h' h⟩

theorem SameRt.start_threads : Along SameRt (hal_start_threads : Prog Machine Int) :=
  .bind .get fun _ => .ite .pure <| .ite .pure <| .ite .pure <| .ite .pure <|
    .bind (.modify fun _ => rfl) fun _ => .pure

theorem SameRt.stop_threads : Along SameRt (hal_stop_threads : Prog Machine Int) :=
  .bind .get fun _ => .ite .pure <| .ite .pure <| .ite .pure <| .ite .pure <|
    .bind (.modify fun _ => rfl) fun _ => .pure

/-- The handles but the one of the UUID segment are as before. -/
def Leaves (h h' : State Machine) : Prop :=
  Keyed h.rt.process → Keyed h'.rt.process ∧
    ∀ i, h.rt.process.Foreign i → h'.rt.process.shmem_array i = h.rt.process.shmem_array i

instance : Std.Refl Leaves := ⟨fun _ hk => ⟨hk, fun _ _ => rfl⟩⟩

instance : IsTrans (State Machine) Leaves where
  trans _ _ _ h h' hk := by
    obtain ⟨hk₁, h₁⟩ := h hk
    obtain ⟨hk₂, h₂⟩ := h' hk₁
    exact ⟨hk₂, fun i hi => (h₂ i (hi.of_slot (h₁ i hi))).trans (h₁ i hi)⟩

theorem Leaves.hal_exit (comp_id : Int) : Along Leaves (hal_exit (rtapi K) comp_id) :=
  have houter : Outer (rtapi K) Leaves :=
    { inside := fun _ _ _ _ _ hk => ⟨hk, fun _ _ => rfl⟩
      step := fun _ _ hs hk => hk.step hs }
  houter.hal_exit comp_id

/-- `rtapi_shmem_delete` of a handle that keeps a reference. -/
theorem keeps_slot {m : Machine} (hk : Keyed m.process) {id : Int} (h₀ : 0 ≤ id)
    (hv : m.process.Valid id.toNat) (module_id : Int)
    (hc : 0 < toInt32 ((m.process.shmem_array id.toNat).count - 1)) :
    ((rtapi K).shmem_delete id module_id m).2.process = m.process.setSlot id.toNat
      { m.process.shmem_array id.toNat with
        count := toInt32 ((m.process.shmem_array id.toNat).count - 1) } := by
  refine perform_of_every (Q := fun _ s' => s' = m.process.setSlot id.toNat _)
    ((rtapi_shmem_delete_spec (l := []) id module_id hk.active).mono fun l' r s' hout => ?_)
  rcases hout with ⟨-, -, hno⟩ | ⟨i, -, rfl, -, ⟨-, -, hs⟩ | ⟨hn, -⟩⟩
  · exact absurd hv (hno id.toNat (Int.toNat_of_nonneg h₀).symm (hk.low _ hv))
  · exact hs
  · exact absurd hc hn

/-! ### The invariant -/

/-- The segment is gone, and nobody will use it: the real-time thread is out of its functions for
good, and the control thread is at the end of `shutdown`, or past it. -/
structure Left (s : Session) : Prop where
  out : s.realtime = .out
  still : ¬ s.Runs
  control : s.control = .deregistering ∨ s.control = .finishing ∨
    (s.owns_ = false ∧ s.started_ = false ∧ s.torn = true ∧
      (s.control = .idle ∨ s.control = .print ∧ s.taskShared = 0))

structure Inv (s : Session) : Prop where
  keyed : Keyed s.hal.rt.process
  proper : ∀ e ∈ s.seen, e.Proper
  held : s.Attached ∨ s.Left
  sending : s.control = .sending → s.torn = false

theorem Initialised.inv (h : s.Initialised) : s.Inv where
  keyed := h.keyed
  proper := by simp [h.seen]
  held := .inl h.attached
  sending hs := absurd (h.idle.symm.trans hs) nofun

theorem Attached.foreign (h : s.Attached) : s.hal.rt.process.Foreign s.emc_shmem_id.toNat :=
  ⟨h.2.1, by rw [h.2.2.1]; decide⟩

theorem Attached.access_proper (h : s.Attached) (hp : ∀ e ∈ s.seen, e.Proper) :
    ∀ e ∈ s.access.seen, e.Proper := by
  intro e he
  rcases List.mem_cons.mp he with rfl | he
  · exact decide_eq_true h
  · exact hp e he

/-- Nothing happened to the handles, and what was done at the channel was done while attached. -/
theorem Inv.attached (h : s.Inv) (hat : s.Attached) (hrt : s'.hal.rt = s.hal.rt)
    (hid : s'.emc_shmem_id = s.emc_shmem_id) (hp : s'.taskShared = s.taskShared)
    (hseen : ∀ e ∈ s'.seen, e.Proper) (hs : s'.control = .sending → s'.torn = false) : s'.Inv where
  keyed := by
    rw [hrt]
    exact h.keyed
  proper := hseen
  held := .inl (by
    unfold Attached
    rw [hrt, hid, hp]
    exact hat)
  sending := hs

theorem Inv.cycle (h : s.Inv) (ha : s.cycle self = some s') : s'.Inv := by
  unfold Session.cycle at ha
  rcases h.held with hat | hleft
  · have haccess := hat.access_proper h.proper
    cases hr : s.realtime with simp only [hr] at ha
    | out =>
        cases ha
        split
        · exact h.attached hat rfl rfl rfl h.proper h.sending
        · exact h
    | handler =>
        split_ifs at ha with h₀
        · cases ha
          exact h.attached hat rfl rfl rfl h.proper h.sending
        · obtain ⟨ch, -, rfl⟩ := Option.map_eq_some_iff.mp ha
          exact h.attached hat rfl rfl rfl h.proper h.sending
    | handling =>
        obtain ⟨ch, -, rfl⟩ := Option.map_eq_some_iff.mp ha
        split
        · exact h.attached hat rfl rfl rfl h.proper h.sending
        · exact h.attached hat rfl rfl rfl haccess h.sending
    | controller | mirror | stamp =>
        cases ha
        exact h.attached hat rfl rfl rfl h.proper h.sending
    | heartbeat | cycle_count | load_heartbeat | store_wakeup =>
        cases ha
        exact h.attached hat rfl rfl rfl haccess h.sending
  · -- the thread stays out of its functions
    simp only [hleft.out, if_neg hleft.still] at ha
    cases ha
    exact h

/-- `stop` leaves RTAPI and all but `started_` alone. -/
theorem stop_spec (ha : s.stop = some s') : ∃ (hal : State Machine) (started_ : Bool),
    s' = { s with hal := hal, started_ := started_ } ∧ hal.rt = s.hal.rt ∧
      (s.started_ = false → hal = s.hal ∧ started_ = false) := by
  unfold Session.stop at ha
  split_ifs at ha with hst
  rotate_left
  · cases ha
    exact ⟨s.hal, s.started_, rfl, rfl, fun h => ⟨rfl, h⟩⟩
  · rcases hrun : hal_stop_threads s.hal with ⟨r, hal⟩ | ⟨e, hal⟩ <;> rw [hrun] at ha
    · have hrt : hal.rt = s.hal.rt := SameRt.stop_threads.of_ok hrun
      have hno : s.started_ = false → hal = s.hal ∧ False := fun h => by simp [h] at hst
      simp only at ha
      split_ifs at ha
      · cases ha
        exact ⟨hal, s.started_, rfl, hrt, fun h => (hno h).2.elim⟩
      · cases ha
        exact ⟨hal, false, rfl, hrt, fun h => (hno h).2.elim⟩
    · cases ha

theorem Inv.start (h : s.Inv) (hi : s.control = .idle) (ha : s.start = some s') : s'.Inv := by
  unfold Session.start at ha
  split_ifs at ha with hno
  · cases ha
    exact h
  · rcases hrun : hal_start_threads s.hal with ⟨r, hal⟩ | ⟨e, hal⟩ <;> rw [hrun] at ha
    · have hrt : hal.rt = s.hal.rt := SameRt.start_threads.of_ok hrun
      -- a guard that is torn down owns nothing
      have hat : s.Attached := by
        refine h.held.resolve_right fun hleft => ?_
        rcases hleft.control with hc | hc | ⟨ho, -⟩
        · simp [hi] at hc
        · simp [hi] at hc
        · simp [ho] at hno
      simp only at ha
      split_ifs at ha
      · cases ha
        exact h.attached hat hrt rfl rfl h.proper h.sending
      · cases ha
        exact h.attached hat hrt rfl rfl h.proper nofun
    · cases ha

theorem Left.idle (h : s.Left) (hi : s.control = .idle) :
    s.owns_ = false ∧ s.started_ = false ∧ s.torn = true := by
  rcases h.control with hc | hc | ⟨ho, hs, ht, -⟩
  · simp [hi] at hc
  · simp [hi] at hc
  · exact ⟨ho, hs, ht⟩

/-- A call of the control thread, from outside of any. -/
theorem Inv.call (h : s.Inv) (hi : s.control = .idle) (hc : s.Careful a)
    (ha : s.call K self a = some s') : s'.Inv := by
  cases a with
  | start => exact h.start hi ha
  | stop =>
      obtain ⟨hal, started_, rfl, hrt, hsame⟩ := stop_spec ha
      rcases h.held with hat | hleft
      · exact h.attached hat hrt rfl rfl h.proper h.sending
      · obtain ⟨ho, hs, ht⟩ := hleft.idle hi
        obtain ⟨rfl, rfl⟩ := hsame hs
        exact ⟨h.keyed, h.proper,
          .inr ⟨hleft.out, hleft.still, .inr (.inr ⟨ho, rfl, ht, .inl hi⟩)⟩, h.sending⟩
  | send_command c =>
      replace ha : (if s.taskShared = 0 then some (s.returns (-1)) else _) = some s' := ha
      split_ifs at ha with h₀
      · cases ha
        have hproper : ∀ e ∈ (s.returns (-1)).seen, e.Proper := by
          intro e he
          rcases List.mem_cons.mp he with rfl | he
          · exact fun _ => rfl
          · exact h.proper e he
        exact ⟨h.keyed, hproper, h.held.imp id fun hl => ⟨hl.out, hl.still, hl.control⟩, h.sending⟩
      · obtain ⟨ch, -, rfl⟩ := Option.map_eq_some_iff.mp ha
        have ht : s.torn = false := Bool.eq_false_iff.mpr fun ht => h₀ (hc ht)
        have hat : s.Attached := h.held.resolve_right fun hl => by
          simp [(hl.idle hi).2.2] at ht
        exact h.attached hat rfl rfl rfl h.proper fun _ => ht
  | print_stats =>
      cases ha
      by_cases hat : s.Attached
      · exact h.attached hat rfl rfl rfl h.proper nofun
      · have hl := h.held.resolve_left hat
        obtain ⟨ho, hs, ht⟩ := hl.idle hi
        exact ⟨h.keyed, h.proper,
          .inr ⟨hl.out, hl.still, .inr (.inr ⟨ho, hs, ht, .inr ⟨rfl, hc hat⟩⟩)⟩, nofun⟩
  | shutdown =>
      replace ha : (if ¬ s.owns_ then some s else _) = some s' := ha
      split_ifs at ha with ho
      rotate_left
      · cases ha
        exact h
      · obtain ⟨s₁, hs₁, rfl⟩ := Option.map_eq_some_iff.mp ha
        obtain ⟨hal, started_, rfl, hrt, -⟩ := stop_spec hs₁
        have hat : s.Attached := h.held.resolve_right fun hl => by
          simp [(hl.idle hi).1] at ho
        exact h.attached hat hrt rfl rfl h.proper nofun
  | proceed =>
      replace ha : s.proceed K self = some s' := ha
      unfold Session.proceed at ha
      simp [hi] at ha
  | cycle => exact h.cycle ha

theorem Inv.proceed (h : s.Inv) (hc : s.Careful .proceed) (ha : s.proceed K self = some s') :
    s'.Inv := by
  unfold Session.proceed at ha
  have hleft : ∀ {c}, s.control = c → c ≠ .deregistering → c ≠ .finishing → c ≠ .idle →
      ¬ (c = .print ∧ s.taskShared = 0) → s.Attached := by
    intro c hs h₁ h₂ h₃ h₄
    refine h.held.resolve_right fun hl => ?_
    rcases hl.control with hc | hc | ⟨-, -, -, hc | hc⟩
    · exact h₁ (hs.symm.trans hc)
    · exact h₂ (hs.symm.trans hc)
    · exact h₃ (hs.symm.trans hc)
    · exact h₄ ⟨hs.symm.trans hc.1, hc.2⟩
  cases hs : s.control with simp only [hs] at ha
  | idle => cases ha
  | sending =>
      obtain ⟨ch, -, rfl⟩ := Option.map_eq_some_iff.mp ha
      have hat := hleft hs nofun nofun nofun (fun h => nomatch h.1)
      have ht := h.sending hs
      have haccess := hat.access_proper h.proper
      split
      · refine h.attached hat rfl rfl rfl (fun e he => ?_) nofun
        rcases List.mem_cons.mp he with rfl | he
        · exact fun h' => absurd (ht.symm.trans h') Bool.false_ne_true
        · exact haccess e he
      · exact h.attached hat rfl rfl rfl haccess fun _ => ht
  | print =>
      cases ha
      split_ifs with h₀
      · refine ⟨h.keyed, h.proper, h.held.imp id fun hl => ?_, nofun⟩
        rcases hl.control with hc | hc | ⟨ho, hst, ht, -⟩
        · simp [hs] at hc
        · simp [hs] at hc
        · exact ⟨hl.out, hl.still, .inr (.inr ⟨ho, hst, ht, .inl rfl⟩)⟩
      · have hat := hleft hs nofun nofun nofun fun h => h₀ h.2
        exact h.attached hat rfl rfl rfl h.proper nofun
  | printing n =>
      have hat := hleft hs nofun nofun nofun (fun h => nomatch h.1)
      cases n with
      | zero =>
          cases ha
          exact h.attached hat rfl rfl rfl h.proper nofun
      | succ n =>
          cases ha
          exact h.attached hat rfl rfl rfl (hat.access_proper h.proper) nofun
  | exiting =>
      have hat := hleft hs nofun nofun nofun (fun h => nomatch h.1)
      rcases hrun : hal_stop_threads s.hal with ⟨r, hal⟩ | ⟨e, hal⟩ <;> rw [hrun] at ha
      · cases ha
        exact h.attached hat (SameRt.stop_threads.of_ok hrun) rfl rfl h.proper nofun
      · cases ha
  | deleting =>
      have hat := hleft hs nofun nofun nofun (fun h => nomatch h.1)
      cases ha
      by_cases hd : s.Detaches
      · obtain ⟨hout, hstill⟩ := hc hs hd
        refine ⟨?_, h.proper, .inr ⟨hout, hstill, .inl rfl⟩, nofun⟩
        exact perform_of_every (h.keyed.shmem_delete_any (l := []) s.emc_shmem_id s.mot_comp_id)
      · have hsame := keeps_slot (K := K) h.keyed hat.1 hat.2.1 s.mot_comp_id (not_not.mp hd)
        have hkeyed := (h.keyed.count s.emc_shmem_id.toNat (toInt32
          ((s.hal.rt.process.shmem_array s.emc_shmem_id.toNat).count - 1))).1
        rw [← hsame] at hkeyed
        refine ⟨hkeyed, h.proper, .inl ?_, nofun⟩
        show 0 ≤ s.emc_shmem_id ∧ _
        rw [hsame, Process.setSlot_self]
        exact hat
  | deregistering =>
      rcases hrun : hal_exit (rtapi K) s.mot_comp_id s.hal with ⟨r, hal⟩ | ⟨e, hal⟩ <;>
        rw [hrun] at ha
      · cases ha
        obtain ⟨hk, hslots⟩ := (Leaves.hal_exit s.mot_comp_id).of_ok hrun h.keyed
        refine ⟨hk, h.proper, h.held.imp (fun hat => ?_) fun hl => ?_, nofun⟩
        · unfold Attached
          rw [hslots _ hat.foreign]
          exact hat
        · exact ⟨hl.out, fun hr => absurd hr.2 Bool.false_ne_true, .inr (.inl rfl)⟩
      · cases ha
  | finishing =>
      cases ha
      exact ⟨h.keyed, h.proper, h.held.imp id fun hl =>
        ⟨hl.out, hl.still, .inr (.inr ⟨rfl, rfl, rfl, .inl rfl⟩)⟩, nofun⟩

theorem Inv.step (h : s.Inv) (hc : s.Careful a) (ha : step K self a s = some s') : s'.Inv := by
  unfold Session.step at ha
  split_ifs at ha with hidle
  by_cases hp : a = .proceed
  · subst hp
    exact h.proceed hc ha
  · by_cases hcy : a = .cycle
    · subst hcy
      exact h.cycle ha
    · exact h.call (not_not.mp fun hne => hidle ⟨hp, hcy, hne⟩) hc ha

/-! ### Runs -/

/-- **The application memory is not used after its release**, where the segment is detached while
the real-time thread is out of its functions, and nothing is sent or printed afterwards. -/
theorem accesses_attached (K : Kernel) (self : Int) (h : s₀.Initialised)
    (hr : Reached (step K self) Careful s₀ s) : ∀ e ∈ s.seen, e.Proper :=
  (hr.invariant h.inv fun _ _ _ hi hc ha => hi.step hc ha).proper

/-! ### Runs that compute -/

/-- A system that answers every call, and maps the segments of different keys apart. -/
def apart (n : Nat) : (c : Call) → c.Answer
  | .shmat id =>
      if id = TASK_SHM_KEY then .ok ⟨0x1000000, by decide, 0⟩ else serving n (.shmat id)
  | c => serving n c

/-- HAL with the component of the task. -/
def withComponent : Watched :=
  reached (Api.watch apart (.of (.hal_init (some (lit ['e', 'x']))))) <|
    reached (Api.watch apart .hal_app_main) ⟨fresh, []⟩

/-- Past `init`: the component is 2, and the application segment is open. -/
def begun : Session :=
  let m := (rtapi apart).shmem_new TASK_SHM_KEY 2 40 withComponent.hal.rt
  { hal := { withComponent.hal with rt := m.2 }
    emc_shmem_id := m.1
    mot_comp_id := 2
    taskShared := ((rtapi apart).shmem_getptr m.1 m.2).1.2
    channel := Channel.fresh }

theorem begun_initialised : begun.Initialised where
  keyed := by
    have hcalls : Calls apart (fun s a => a.Careful apart s) withComponent :=
      .call (.of (.hal_init (some (lit ['e', 'x']))))
        (.call .hal_app_main (.start {}) trivial (reached_eq (by decide +kernel)))
        (fun _ _ _ _ _ => by decide +kernel) (reached_eq (by decide +kernel))
    have huuid : withComponent.hal.rt.process.uuid_mem_id = (0 : Nat) ∧
        withComponent.hal.rt.process.Valid 0 := by
      unfold Process.Valid
      decide +kernel
    exact (perform_of_every (K := apart) (m := withComponent.hal.rt)
      (hcalls.sound.anchored.keyed.shmem_new (l := []) 2 40 (.inr ⟨0, huuid⟩))).1
  attached := by decide +kernel
  idle := rfl
  out := rfl
  torn := rfl
  seen := rfl

/-- The threads are started, and a cycle runs to its end before `shutdown`. -/
def shutBetween : List Act :=
  .start :: List.replicate 5 .proceed ++ List.replicate 12 .cycle ++
    .shutdown :: List.replicate 4 .proceed

theorem accesses_attached_sample : ∃ s, acted (step apart 0) shutBetween begun = some s ∧
    ¬ s.Attached ∧ s.seen.length = 10 ∧ ∀ e ∈ s.seen, e.Proper := by
  have hmeets : Meets (step apart 0) Careful shutBetween begun := by decide +kernel
  have hends : (acted (step apart 0) shutBetween begun).any
      (fun s => ¬ s.Attached ∧ s.seen.length = 10) := by
    decide +kernel
  obtain ⟨s, hrun, hs⟩ := (Option.any_eq_true _ _).mp hends
  obtain ⟨hgone, hlen⟩ := of_decide_eq_true hs
  exact ⟨s, hrun, hgone, hlen,
    accesses_attached apart 0 begun_initialised (.of_acted hrun hmeets)⟩

/-- The segment is detached while the handler is past its test of `taskShared`. -/
def shutWithin : List Act :=
  .start :: List.replicate 5 .proceed ++ List.replicate 2 .cycle ++
    .shutdown :: List.replicate 2 .proceed ++ [.cycle]

theorem shutWithin_accesses : ¬ ∀ (K : Kernel) (self : Int) (s₀ s : Session), s₀.Initialised →
    Reached (step K self) (fun _ _ => True) s₀ s → ∀ e ∈ s.seen, e.Proper := by
  intro h
  have hmeets : Meets (step apart 0) (fun _ _ => True) shutWithin begun := by decide +kernel
  have hends : (acted (step apart 0) shutWithin begun).any (fun s => .access false ∈ s.seen) := by
    decide +kernel
  obtain ⟨s, hrun, hs⟩ := (Option.any_eq_true _ _).mp hends
  have hproper := h apart 0 begun s begun_initialised (.of_acted hrun hmeets) _ (of_decide_eq_true hs)
  exact Bool.false_ne_true hproper

end Session

end RTS.ExampleTask

import RealTimeSystem.ExampleTask.Commands
import RealTimeSystem.Uspace.Tasks

/-!
# System — the cycle of the real-time thread

The users of the command channel, who only send, and the one thread that runs `taskCommandHandler`,
`taskController` and `rtapi_wait` in turn.  The handler asks RTAPI to pause and to resume the thread
it runs in.

The thread that waits for a resume is the one that would process it.
-/

namespace RTS.ExampleTask

open RTS.Support RTS.Uspace

/-! ### The task of the handler -/

/-- A request of the handler, done to the task it names, which is its own. -/
def Request.on : Request → Task → Task
  | .task_pause _, t =>
      if t.state ≠ .running then t
      else { t with state := .paused, pause_sem := t.pause_sem + 1 }
  | .task_resume _, t =>
      if t.state ≠ .paused then t else { t with resume_sem := t.resume_sem + 1 }
  | .pll_set_correction value, t =>
      let value := min value t.pll_correction_limit
      { t with pll_correction := max value (-t.pll_correction_limit) }

/-- What a command asks of RTAPI. -/
def asks (self : Int) (c : Command) : List Request :=
  (process self { target_pos := none, enable_in := none } c).requests

def perform (self : Int) (c : Command) (t : Task) : Task :=
  (asks self c).foldl (fun t r => r.on t) t

section
variable {s : Process} {l : List (Asked Process Call Call.Answer)} {id : Int} {n : Nat} {t : Task}

/-- The requests are those of `uspace_rtapi_app.cpp`. -/
theorem on_task_pause (h : get_task s id = some (n, t)) :
    Every (rtapi_task_pause id) s l fun _ _ s' =>
      s'.task_array n = some ((Request.task_pause id).on t) := by
  obtain ⟨-, -, ht, -⟩ := get_task_some h
  unfold rtapi_task_pause
  rw [every_bind, every_get, h]
  refine .ite (fun hne => ?_) fun hr => ?_
  · show s.task_array n = some (if t.state ≠ .running then t else _)
    rw [if_pos hne, ht]
  · show (s.setTask n _).task_array n = some (if t.state ≠ .running then t else _)
    rw [if_neg hr, s.setTask_self]

theorem on_task_resume (h : get_task s id = some (n, t)) :
    Every (rtapi_task_resume id) s l fun _ _ s' =>
      s'.task_array n = some ((Request.task_resume id).on t) := by
  obtain ⟨-, -, ht, -⟩ := get_task_some h
  unfold rtapi_task_resume
  rw [every_bind, every_get, h]
  refine .ite (fun hne => ?_) fun hr => ?_
  · show s.task_array n = some (if t.state ≠ .paused then t else _)
    rw [if_pos hne, ht]
  · show (s.setTask n _).task_array n = some (if t.state ≠ .paused then t else _)
    rw [if_neg hr, s.setTask_self]

end

/-- The task runs, and nobody has asked it to pause or to resume. -/
def Steady (t : Task) : Prop := t.state = .running ∧ t.pause_sem = 0 ∧ t.resume_sem = 0

theorem Steady.perform {self : Int} {c : Command} {t : Task} (h : Steady t)
    (hc : c.id = .pause → self < 0) : Steady (perform self c t) := by
  obtain ⟨id, data⟩ := c
  cases id with
  | pause =>
      have hneg : ¬ self ≥ 0 := Int.not_le.mpr (hc rfl)
      simpa [ExampleTask.perform, asks, process, hneg] using h
  | resume =>
      -- the task runs, so the request is refused
      have hne : t.state ≠ .paused := by rw [h.1]; decide
      by_cases hs : self ≥ 0
      · simpa [ExampleTask.perform, asks, process, hs, Request.on, hne] using h
      · simpa [ExampleTask.perform, asks, process, hs] using h
  | set_pll => exact h
  | none | set_target | enable | disable | shutdown => exact h

/-! ### The system -/

/-- Where the real-time thread is: before a cycle, in the handler, before the controller, and in
`rtapi_wait` before its `sem_trywait`, before its `sem_wait`, before its store of
`TASK_S_RUNNING`. -/
inductive Stage where
  | start | handler | controller | trywait | blocked | woken
  deriving DecidableEq

/-- Users `U` and the real-time thread, which is `none` on the channel. -/
structure Station (U : Type) where
  channel : Channel (Option U)
  task : Task
  stage : Stage := .start

/-- A user calls `send_command` or makes its next access; the real-time thread makes its next
step. -/
inductive Act (U : Type) where
  | send_command (u : U) (c : Command) | access (u : U) | cycle
  deriving DecidableEq

/-- The handler is about to process a `TASK_CMD_PAUSE`. -/
def Place.pauses : Place → Bool
  | .processing c => c.id = .pause
  | _ => false

namespace Station

variable {U : Type} [DecidableEq U]

/-- The controller leaves the command channel and the task alone. -/
def cycle (self : Int) (s : Station U) : Option (Station U) :=
  match s.stage with
  | .start =>
      (Channel.step self (none, .taskCommandHandler) s.channel).map fun ch =>
        { s with channel := ch, stage := .handler }
  | .handler =>
      (s.channel.access self none).map fun ch =>
        { channel := ch
          task := match s.channel.place none with
            | .processing c => perform self c s.task
            | _ => s.task
          stage := if ch.place none = .idle then .controller else .handler }
  | .controller => some { s with stage := .trywait }
  | .trywait =>
      if s.task.pause_sem = 0 then some { s with stage := .start }
      else some { s with task.pause_sem := s.task.pause_sem - 1, stage := .blocked }
  | .blocked =>
      if s.task.resume_sem = 0 then none
      else some { s with task.resume_sem := s.task.resume_sem - 1, stage := .woken }
  | .woken => some { s with task.state := .running, stage := .start }

def step (self : Int) : Act U → Station U → Option (Station U)
  | .send_command u c, s =>
      (Channel.step self (some u, .send_command c) s.channel).map fun ch => { s with channel := ch }
  | .access u, s => (s.channel.access self (some u)).map fun ch => { s with channel := ch }
  | .cycle, s => s.cycle self

/-- The zeroed channel, and the task as `task_start` leaves it. -/
def started (b : Board) (t : Task) : Station U :=
  { channel := { board := b }
    task := { t with state := .running, pause_sem := 0, resume_sem := 0 } }

/-- The handler does not process a `TASK_CMD_PAUSE`. -/
def Unpaused (self : Int) (s : Station U) (a : Act U) : Prop :=
  a = .cycle → (s.channel.place none).pauses → self < 0

instance (self : Int) (s : Station U) (a : Act U) : Decidable (Unpaused self s a) :=
  inferInstanceAs (Decidable (_ → _ → _))

variable {self : Int} {s : Station U} {u : U}

omit [DecidableEq U] in
theorem Unpaused.access : s.Unpaused self (.access u) := nofun

omit [DecidableEq U] in
theorem Unpaused.send_command {c : Command} : s.Unpaused self (.send_command u c) := nofun

end Station

/-! ### Who is where -/

/-- The places of `send_command`. -/
def Place.sends : Place → Prop
  | .idle | .getting _ | .store_id _ | .store_data _ | .advance _ | .giving => True
  | _ => False

/-- The places of `taskCommandHandler`. -/
def Place.handles : Place → Prop
  | .idle | .trying | .compare | .load_id | .load_data _ | .processing _ | .consume | .giving =>
      True
  | _ => False

/-- A command is being put into the slot. -/
def Place.stores : Place → Prop
  | .store_id _ | .store_data _ | .advance _ => True
  | _ => False

namespace Channel

variable {I : Type} {s s' : Channel I} {self : Int} {i : I}

/-- The command in the slot. -/
def slot (s : Channel I) : Command := ⟨s.shared.command_id, s.shared.command_data⟩

/-- What the handler has loaded is in the slot. -/
def Loaded (s : Channel I) : Place → Prop
  | .load_data id => s.shared.command_id = id
  | .processing c => s.slot = c
  | _ => True

variable [DecidableEq I]

theorem access_places (ha : s.access self i = some s') :
    (∀ j, j ≠ i → s'.place j = s.place j) ∧ ((s.place i).sends → (s'.place i).sends) ∧
      ((s.place i).handles → (s'.place i).handles) := by
  unfold access at ha
  cases hp : s.place i with simp only [hp] at ha
  | idle => cases ha
  | getting c =>
      split_ifs at ha
      · cases ha
        exact ⟨fun _ _ => rfl, fun h => hp ▸ h, fun h => hp ▸ h⟩
      · cases ha
        refine ⟨fun j hj => Function.update_of_ne hj _ _, fun _ => ?_, nofun⟩
        simp [goto, Place.sends]
  | trying =>
      split_ifs at ha
      all_goals
        cases ha
        refine ⟨fun j hj => Function.update_of_ne hj _ _, nofun, fun _ => ?_⟩
        simp [goto, Place.handles]
  | store_id | store_data | advance =>
      cases ha
      refine ⟨fun j hj => Function.update_of_ne hj _ _, fun _ => ?_, nofun⟩
      simp [goto, Place.sends]
  | compare =>
      cases ha
      refine ⟨fun j hj => Function.update_of_ne hj _ _, nofun, fun _ => ?_⟩
      split <;> simp [goto, Place.handles]
  | load_id | load_data | processing | consume =>
      cases ha
      refine ⟨fun j hj => Function.update_of_ne hj _ _, nofun, fun _ => ?_⟩
      simp [goto, Place.handles]
  | giving =>
      cases ha
      refine ⟨fun j hj => Function.update_of_ne hj _ _, fun _ => ?_, fun _ => ?_⟩
      · simp [goto, Place.sends]
      · simp [goto, Place.handles]

/-- One thread is inside the mutex, and nobody changes the slot under the handler. -/
def Sole (s : Channel I) : Prop :=
  Guards s.shared.command_mutex s.place Place.inside True s.Loaded

theorem Sole.access (h : s.Sole) (ha : s.access self i = some s') : s'.Sole := by
  have hat : ∀ {p}, s.place i = p → p.inside → (s.place i).inside ∧ s.Loaded p :=
    fun hp hin => ⟨hp ▸ hin, hp ▸ Guards.at_place h i (hp ▸ hin)⟩
  unfold Channel.access at ha
  cases hp : s.place i with simp only [hp] at ha
  | idle => cases ha
  | getting c | trying =>
      split_ifs at ha with hm
      · cases ha
        first
          | exact h
          | exact h.outside (by rw [hp]; exact id) id
      · cases ha
        rw [Bool.not_eq_true] at hm
        unfold Sole at h
        rw [hm] at h
        exact h.acquire trivial trivial
  | compare =>
      obtain ⟨hin, -⟩ := hat hp trivial
      cases ha
      split_ifs
      · exact h.within hin trivial trivial
      · exact h.within hin trivial trivial
  | load_id =>
      obtain ⟨hin, -⟩ := hat hp trivial
      cases ha
      exact h.within hin trivial rfl
  | load_data id =>
      obtain ⟨hin, hid⟩ := hat hp trivial
      cases ha
      exact h.within hin trivial (congrArg (Command.mk · _) hid)
  | store_id | store_data | advance | processing | consume =>
      obtain ⟨hin, -⟩ := hat hp trivial
      cases ha
      exact h.within hin trivial trivial
  | giving =>
      obtain ⟨hin, -⟩ := hat hp trivial
      cases ha
      exact h.release hin id trivial

end Channel

/-! ### Nobody waits -/

namespace Station

variable {U : Type} [DecidableEq U] {s s' : Station U} {self : Int} {a : Act U} {u : U}

/-- A user is in `send_command`, or in nothing. -/
def Users (s : Station U) : Prop := ∀ u, (s.channel.place (some u)).sends

theorem Users.access {ch : Channel (Option U)} {i : Option U}
    (h : ∀ u, (s.channel.place (some u)).sends) (ha : s.channel.access self i = some ch) :
    ∀ u, (ch.place (some u)).sends := by
  intro u
  obtain ⟨hothers, hsends, -⟩ := Channel.access_places ha
  by_cases hu : some u = i
  · subst hu
    exact hsends (h u)
  · rw [hothers _ hu]
    exact h u

theorem Users.goto {i : Option U} {p : Place} (h : s.Users) (hp : i.isSome → p.sends) (u : U) :
    ((s.channel.goto i p).place (some u)).sends := by
  by_cases hu : some u = i
  · subst hu
    simpa [Channel.goto] using hp rfl
  · simpa [Channel.goto, Function.update_of_ne hu] using h u

theorem Users.step (h : s.Users) (ha : step self a s = some s') : s'.Users := by
  cases a with
  | send_command u c =>
      obtain ⟨ch, hch, rfl⟩ := Option.map_eq_some_iff.mp ha
      obtain ⟨-, heq⟩ := Option.ite_none_right_eq_some.mp hch
      cases heq
      exact h.goto fun _ => trivial
  | access u =>
      obtain ⟨ch, hch, rfl⟩ := Option.map_eq_some_iff.mp ha
      exact Users.access h hch
  | cycle =>
      replace ha : s.cycle self = some s' := ha
      unfold cycle at ha
      cases hst : s.stage with simp only [hst] at ha
      | start =>
          obtain ⟨ch, hch, rfl⟩ := Option.map_eq_some_iff.mp ha
          obtain ⟨-, heq⟩ := Option.ite_none_right_eq_some.mp hch
          cases heq
          exact h.goto nofun
      | handler =>
          obtain ⟨ch, hch, rfl⟩ := Option.map_eq_some_iff.mp ha
          exact Users.access h hch
      | controller | woken =>
          cases ha
          exact h
      | trywait =>
          split_ifs at ha <;> cases ha <;> exact h
      | blocked =>
          split_ifs at ha
          cases ha
          exact h

/-- The thread goes round its cycle, and its task runs. -/
structure Rolling (s : Station U) : Prop where
  sole : s.channel.Sole
  users : s.Users
  handles : (s.channel.place none).handles
  inHandler : s.stage = .handler ↔ s.channel.place none ≠ .idle
  unblocked : s.stage ≠ .blocked ∧ s.stage ≠ .woken
  steady : Steady s.task

omit [DecidableEq U] in
theorem started_rolling (b : Board) (t : Task) : Rolling (U := U) (started b t) where
  sole :=
    { free := fun _ => trivial
      empty := fun _ _ => id
      held := nofun
      one := fun _ _ hi => hi.elim
      at_place := fun _ hi => hi.elim }
  users _ := trivial
  handles := trivial
  inHandler := ⟨nofun, fun h => absurd rfl h⟩
  unblocked := ⟨nofun, nofun⟩
  steady := ⟨rfl, rfl, rfl⟩

omit [DecidableEq U] in
theorem Rolling.idle (h : s.Rolling) (hs : s.stage ≠ .handler) : s.channel.place none = .idle :=
  not_not.mp fun hne => hs (h.inHandler.mpr hne)

theorem Rolling.step (h : s.Rolling) (hc : s.Unpaused self a) (ha : step self a s = some s') :
    s'.Rolling := by
  have husers := h.users.step ha
  cases a with
  | send_command u c =>
      obtain ⟨ch, hch, rfl⟩ := Option.map_eq_some_iff.mp ha
      obtain ⟨hidle, heq⟩ := Option.ite_none_right_eq_some.mp hch
      cases heq
      have hrt : (s.channel.goto (some u) (.getting c)).place none = s.channel.place none := by
        simp [Channel.goto]
      exact ⟨h.sole.outside (by rw [hidle]; exact id) id, husers, hrt ▸ h.handles,
        hrt ▸ h.inHandler, h.unblocked, h.steady⟩
  | access u =>
      obtain ⟨ch, hch, rfl⟩ := Option.map_eq_some_iff.mp ha
      have hrt : ch.place none = s.channel.place none :=
        (Channel.access_places hch).1 none (by simp)
      exact ⟨h.sole.access hch, husers, hrt ▸ h.handles, hrt ▸ h.inHandler, h.unblocked, h.steady⟩
  | cycle =>
      replace ha : s.cycle self = some s' := ha
      unfold cycle at ha
      cases hst : s.stage with simp only [hst] at ha
      | start =>
          obtain ⟨ch, hch, rfl⟩ := Option.map_eq_some_iff.mp ha
          obtain ⟨hidle, heq⟩ := Option.ite_none_right_eq_some.mp hch
          cases heq
          have hrt : (s.channel.goto none .trying).place none = .trying := by simp [Channel.goto]
          exact ⟨h.sole.outside (by rw [hidle]; exact id) id, husers, hrt ▸ trivial,
            ⟨fun _ => by rw [hrt]; nofun, fun _ => rfl⟩, ⟨nofun, nofun⟩, h.steady⟩
      | handler =>
          obtain ⟨ch, hch, rfl⟩ := Option.map_eq_some_iff.mp ha
          obtain ⟨-, -, hhandles⟩ := Channel.access_places hch
          refine ⟨h.sole.access hch, husers, hhandles h.handles, ?_, ?_, ?_⟩
          · by_cases hidle : ch.place none = .idle <;> simp [hidle]
          · by_cases hidle : ch.place none = .idle <;> simp [hidle]
          · show Steady (match s.channel.place none with
              | .processing c => perform self c s.task
              | _ => s.task)
            split
            · next c hp =>
                exact h.steady.perform fun hid => hc rfl (by simp [hp, Place.pauses, hid])
            · exact h.steady
      | controller =>
          cases ha
          have hidle := h.idle (by rw [hst]; nofun)
          exact ⟨h.sole, husers, h.handles, ⟨nofun, fun hne => absurd hidle hne⟩, ⟨nofun, nofun⟩,
            h.steady⟩
      | trywait =>
          rw [if_pos h.steady.2.1] at ha
          cases ha
          have hidle := h.idle (by rw [hst]; nofun)
          exact ⟨h.sole, husers, h.handles, ⟨nofun, fun hne => absurd hidle hne⟩, ⟨nofun, nofun⟩,
            h.steady⟩
      | blocked => exact absurd hst h.unblocked.1
      | woken => exact absurd hst h.unblocked.2

theorem Rolling.reached (h : s.Rolling) (hr : Reached (Station.step self) (Unpaused self) s s') :
    s'.Rolling :=
  hr.invariant h fun _ _ _ hi hc ha => hi.step hc ha

/-! ### A pending command is processed -/

/-- The thread can get at the command in the slot: no one else is inside, and a command is
pending. -/
structure Ready (s : Station U) : Prop where
  rolling : s.Rolling
  pending : s.channel.shared.head ≠ s.channel.shared.tail
  taken : s.channel.place none ≠ .consume
  open_ : s.channel.shared.command_mutex = true → (s.channel.place none).inside

/-- The steps of the thread to the processing of a command. -/
def distance (s : Station U) : Nat :=
  match s.stage, s.channel.place none with
  | .handler, .load_data _ => 1
  | .handler, .load_id => 2
  | .handler, .compare => 3
  | .handler, .trying => 4
  | .start, _ => 5
  | .trywait, _ => 6
  | .controller, _ => 7
  | .handler, .giving => 8
  | _, _ => 0

/-- What the thread's own steps to a command leave alone. -/
structure Toward (s s' : Station U) : Prop where
  slot : s'.channel.slot = s.channel.slot
  processed : s'.channel.processed = s.channel.processed
  nearer : s'.distance < s.distance

theorem cycle_start (self : Int) (hst : s.stage = .start) (hidle : s.channel.place none = .idle) :
    step self .cycle s =
      some { s with channel := s.channel.goto none .trying, stage := .handler } := by
  simp [step, cycle, hst, Channel.step, hidle]

/-- An access of the handler that processes nothing. -/
theorem cycle_handler (self : Int) (ch : Channel (Option U)) (p : Place)
    (hst : s.stage = .handler) (hp : ∀ c, s.channel.place none ≠ .processing c)
    (hch : s.channel.access self none = some (ch.goto none p)) :
    step self .cycle s = some
      { channel := ch.goto none p, task := s.task
        stage := if p = .idle then .controller else .handler } := by
  have hplace : (ch.goto none p).place none = p := by simp [Channel.goto]
  -- by `hp`, the task is left as it is
  simp only [step, cycle, hst, hch, Option.map_some, hplace]

theorem cycle_processing (self : Int) (hst : s.stage = .handler) {c : Command}
    (hp : s.channel.place none = .processing c) :
    ∃ s', step self .cycle s = some s' ∧ s'.channel.processed = s.channel.processed ++ [c] := by
  simp [step, cycle, hst, Channel.access, hp, Channel.goto]

theorem Ready.next (self : Int) (h : s.Ready) (hp : ∀ c, s.channel.place none ≠ .processing c) :
    ∃ s', step self .cycle s = some s' ∧ s.Unpaused self .cycle ∧ s'.Ready ∧ Toward s s' := by
  obtain ⟨hroll, hne, htaken, hopen⟩ := h
  have hun : s.Unpaused self .cycle := by
    intro _ hpause
    cases hpl : s.channel.place none <;> simp [hpl, Place.pauses] at hpause
    exact absurd hpl (hp _)
  have hkeep : ∀ {s'}, step self .cycle s = some s' → s'.Rolling := fun ha => hroll.step hun ha
  have hhandles := hroll.handles
  cases hst : s.stage with
  | start =>
      have hidle := hroll.idle (by rw [hst]; nofun)
      have hs := cycle_start self hst hidle
      rw [hidle] at hopen
      refine ⟨_, hs, hun, ⟨hkeep hs, hne, ?_, fun hm => (hopen hm).elim⟩, rfl, rfl, ?_⟩
      · simp [Channel.goto]
      · simp [distance, hst, Channel.goto]
  | controller =>
      have hs : step self .cycle s = some { s with stage := .trywait } := by simp [step, cycle, hst]
      exact ⟨_, hs, hun, ⟨hkeep hs, hne, htaken, hopen⟩, rfl, rfl, by simp [distance, hst]⟩
  | trywait =>
      have hs : step self .cycle s = some { s with stage := .start } := by
        simp [step, cycle, hst, hroll.steady.2.1]
      exact ⟨_, hs, hun, ⟨hkeep hs, hne, htaken, hopen⟩, rfl, rfl, by simp [distance, hst]⟩
  | blocked => exact absurd hst hroll.unblocked.1
  | woken => exact absurd hst hroll.unblocked.2
  | handler =>
      cases hpl : s.channel.place none with
      | idle => exact absurd hpl (hroll.inHandler.mp hst)
      | getting | store_id | store_data | advance => simp [hpl, Place.handles] at hhandles
      | consume => exact absurd hpl htaken
      | processing c => exact absurd hpl (hp c)
      | trying =>
          -- the mutex is free, so the thread gets it
          have hfree : s.channel.shared.command_mutex = false := by
            rw [hpl] at hopen
            exact Bool.eq_false_iff.mpr fun hm => hopen hm
          have hs := cycle_handler self { s.channel with shared.command_mutex := true } .compare
            hst hp (by simp [Channel.access, hpl, hfree])
          refine ⟨_, hs, hun, ⟨hkeep hs, hne, ?_, fun _ => ?_⟩, rfl, rfl, ?_⟩
          · simp [Channel.goto]
          · simp [Channel.goto, Place.inside]
          · simp [distance, hst, hpl, Channel.goto]
      | compare =>
          have hs := cycle_handler self s.channel .load_id hst hp
            (by simp [Channel.access, hpl, hne])
          refine ⟨_, hs, hun, ⟨hkeep hs, hne, ?_, fun _ => ?_⟩, rfl, rfl, ?_⟩
          · simp [Channel.goto]
          · simp [Channel.goto, Place.inside]
          · simp [distance, hst, hpl, Channel.goto]
      | load_id =>
          have hs := cycle_handler self s.channel (.load_data s.channel.shared.command_id) hst hp
            (by simp [Channel.access, hpl])
          refine ⟨_, hs, hun, ⟨hkeep hs, hne, ?_, fun _ => ?_⟩, rfl, rfl, ?_⟩
          · simp [Channel.goto]
          · simp [Channel.goto, Place.inside]
          · simp [distance, hst, hpl, Channel.goto]
      | load_data id =>
          have hs := cycle_handler self s.channel
            (.processing ⟨id, s.channel.shared.command_data⟩) hst hp
            (by simp [Channel.access, hpl])
          refine ⟨_, hs, hun, ⟨hkeep hs, hne, ?_, fun _ => ?_⟩, rfl, rfl, ?_⟩
          · simp [Channel.goto]
          · simp [Channel.goto, Place.inside]
          · simp [distance, hst, hpl, Channel.goto]
      | giving =>
          have hs := cycle_handler self { s.channel with shared.command_mutex := false } .idle
            hst hp (by simp [Channel.access, hpl])
          refine ⟨_, hs, hun, ⟨hkeep hs, hne, ?_, nofun⟩, rfl, rfl, ?_⟩
          · simp [Channel.goto]
          · simp [distance, hst, hpl]

/-- A run of the two parties. -/
abbrev Run (self : Int) (s s' : Station U) : Prop :=
  Reached (step self) (fun _ _ => True) s s'

omit [DecidableEq U] in
/-- A thread that is past the loads has what is in the slot. -/
theorem Rolling.loaded (h : s.Rolling) {c : Command} (hp : s.channel.place none = .processing c) :
    s.stage = .handler ∧ s.channel.slot = c := by
  have hat := h.sole.at_place none (by rw [hp]; trivial)
  rw [hp] at hat
  exact ⟨h.inHandler.mpr (by rw [hp]; nofun), hat⟩

theorem Ready.processes (self : Int) (h : s.Ready) : ∃ s', Run self s s' ∧
    s'.channel.processed = s.channel.processed ++ [s.channel.slot] := by
  induction hn : s.distance using Nat.strongRecOn generalizing s with
  | ind n ih =>
      by_cases hp : ∃ c, s.channel.place none = .processing c
      · obtain ⟨c, hc⟩ := hp
        obtain ⟨hst, rfl⟩ := h.rolling.loaded hc
        obtain ⟨s', hs, hproc⟩ := cycle_processing self hst hc
        exact ⟨s', Reached.start.next trivial hs, hproc⟩
      · obtain ⟨s₁, hs, -, hready, hslot, hproc, hlt⟩ := h.next self (not_exists.mp hp)
        obtain ⟨s', hrun, hs'⟩ := ih _ (hn ▸ hlt) hready rfl
        refine ⟨s', (Reached.start.next trivial hs).trans hrun, ?_⟩
        rw [hs', hproc, hslot]

/-! ### A user leaves -/

/-- A run in which no `TASK_CMD_PAUSE` is processed. -/
abbrev Peaceful (self : Int) (s s' : Station U) : Prop :=
  Reached (step self) (Unpaused self) s s'

theorem Peaceful.run (h : Peaceful self s s') : Run self s s' := h.mono fun _ _ _ => trivial

/-- What the users leave alone. -/
structure Aside (s s' : Station U) : Prop where
  processed : s'.channel.processed = s.channel.processed
  place : s'.channel.place none = s.channel.place none
  stage : s'.stage = s.stage
  tail : s'.channel.shared.tail = s.channel.shared.tail

omit [DecidableEq U] in
theorem Aside.trans {s'' : Station U} (h : Aside s s') (h' : Aside s' s'') : Aside s s'' :=
  ⟨h'.processed.trans h.processed, h'.place.trans h.place, h'.stage.trans h.stage,
    h'.tail.trans h.tail⟩

theorem access_user (self : Int) (s : Station U) (u : U) (ch : Channel (Option U)) (p : Place)
    (hch : s.channel.access self (some u) = some (ch.goto (some u) p))
    (hplace : ch.place = s.channel.place) (hproc : ch.processed = s.channel.processed)
    (htail : ch.shared.tail = s.channel.shared.tail) :
    ∃ s', step self (.access u) s = some s' ∧ Aside s s' ∧
      s'.channel = ch.goto (some u) p ∧ s'.channel.place (some u) = p := by
  refine ⟨{ s with channel := ch.goto (some u) p }, by simp [step, hch], ⟨hproc, ?_, rfl, htail⟩,
    rfl, by simp [Channel.goto]⟩
  simp [Channel.goto, hplace]

/-- The user is at its `rtapi_mutex_give`. -/
theorem gives (self : Int) (hp : s.channel.place (some u) = .giving) :
    ∃ s', Peaceful self s s' ∧ Aside s s' ∧ s'.channel.place (some u) = .idle ∧
      s'.channel.shared.command_mutex = false ∧
      s'.channel.shared.head = s.channel.shared.head ∧ s'.channel.slot = s.channel.slot := by
  obtain ⟨s', hs, haside, hch, hpl⟩ := access_user self s u
    { s.channel with shared.command_mutex := false } .idle (by simp [Channel.access, hp])
    rfl rfl rfl
  exact ⟨s', Reached.start.next .access hs, haside, hpl, by rw [hch]; rfl, by rw [hch]; rfl,
    by rw [hch]; rfl⟩

/-- The user is about to put its command into the slot. -/
theorem advances (self : Int) {c : Command} (hp : s.channel.place (some u) = .advance c) :
    ∃ s', Peaceful self s s' ∧ Aside s s' ∧ s'.channel.place (some u) = .idle ∧
      s'.channel.shared.command_mutex = false ∧
      s'.channel.shared.head = s.channel.shared.head + 1 := by
  obtain ⟨s₁, hs₁, haside₁, hch₁, hpl₁⟩ := access_user self s u
    { s.channel with
      shared.head := s.channel.shared.head + 1, sent := s.channel.sent ++ [c] } .giving
    (by simp [Channel.access, hp]) rfl rfl rfl
  obtain ⟨s', hrun, haside, hpl, hm, hhead, -⟩ := gives self hpl₁
  exact ⟨s', (Reached.start.next .access hs₁).trans hrun, haside₁.trans haside, hpl, hm,
    by rw [hhead, hch₁]; rfl⟩

theorem stores_data (self : Int) {c : Command} (hp : s.channel.place (some u) = .store_data c) :
    ∃ s', Peaceful self s s' ∧ Aside s s' ∧ s'.channel.place (some u) = .idle ∧
      s'.channel.shared.command_mutex = false ∧
      s'.channel.shared.head = s.channel.shared.head + 1 := by
  obtain ⟨s₁, hs₁, haside₁, hch₁, hpl₁⟩ := access_user self s u
    { s.channel with shared.command_data := c.data } (.advance c)
    (by simp [Channel.access, hp]) rfl rfl rfl
  obtain ⟨s', hrun, haside, hpl, hm, hhead⟩ := advances self hpl₁
  exact ⟨s', (Reached.start.next .access hs₁).trans hrun, haside₁.trans haside, hpl, hm,
    by rw [hhead, hch₁]; rfl⟩

theorem stores_id (self : Int) {c : Command} (hp : s.channel.place (some u) = .store_id c) :
    ∃ s', Peaceful self s s' ∧ Aside s s' ∧ s'.channel.place (some u) = .idle ∧
      s'.channel.shared.command_mutex = false ∧
      s'.channel.shared.head = s.channel.shared.head + 1 := by
  obtain ⟨s₁, hs₁, haside₁, hch₁, hpl₁⟩ := access_user self s u
    { s.channel with shared.command_id := c.id } (.store_data c)
    (by simp [Channel.access, hp]) rfl rfl rfl
  obtain ⟨s', hrun, haside, hpl, hm, hhead⟩ := stores_data self hpl₁
  exact ⟨s', (Reached.start.next .access hs₁).trans hrun, haside₁.trans haside, hpl, hm,
    by rw [hhead, hch₁]; rfl⟩

/-- An idle user sends a command, the mutex being free. -/
theorem sends (self : Int) (c : Command) (hp : s.channel.place (some u) = .idle)
    (hfree : s.channel.shared.command_mutex = false) : ∃ s', Peaceful self s s' ∧ Aside s s' ∧
      s'.channel.place (some u) = .idle ∧ s'.channel.shared.command_mutex = false ∧
      s'.channel.shared.head = s.channel.shared.head + 1 := by
  have hcall : step self (.send_command u c) s =
      some { s with channel := s.channel.goto (some u) (.getting c) } := by
    simp [step, Channel.step, hp]
  obtain ⟨s₂, hs₂, haside₂, hch₂, hpl₂⟩ := access_user self
    { s with channel := s.channel.goto (some u) (.getting c) } u
    { s.channel.goto (some u) (.getting c) with shared.command_mutex := true } (.store_id c)
    (by simp [Channel.access, Channel.goto, hfree]) rfl rfl rfl
  obtain ⟨s', hrun, haside, hpl, hm, hhead⟩ := stores_id self hpl₂
  have haside₁ : Aside s { s with channel := s.channel.goto (some u) (.getting c) } :=
    ⟨rfl, by simp [Channel.goto], rfl, rfl⟩
  refine ⟨s', ((Reached.start.next .send_command hcall).next .access hs₂).trans hrun,
    (haside₁.trans haside₂).trans haside, hpl, hm, ?_⟩
  rw [hhead, hch₂]
  rfl

/-- The user inside leaves; the slot is left alone but for the command it was putting there. -/
theorem leaves (self : Int) (hin : (s.channel.place (some u)).inside) (husers : s.Users) :
    ∃ s', Peaceful self s s' ∧ Aside s s' ∧ s'.channel.place (some u) = .idle ∧
      s'.channel.shared.command_mutex = false ∧
      (¬ (s.channel.place (some u)).stores →
        s'.channel.shared.head = s.channel.shared.head ∧ s'.channel.slot = s.channel.slot) := by
  have hsends := husers u
  cases hp : s.channel.place (some u) with
  | idle | getting => simp [hp, Place.inside] at hin
  | trying | compare | load_id | load_data | processing | consume =>
      simp [hp, Place.sends] at hsends
  | store_id c =>
      obtain ⟨s', hrun, haside, hidle, hm, -⟩ := stores_id self hp
      exact ⟨s', hrun, haside, hidle, hm, fun h => absurd trivial h⟩
  | store_data c =>
      obtain ⟨s', hrun, haside, hidle, hm, -⟩ := stores_data self hp
      exact ⟨s', hrun, haside, hidle, hm, fun h => absurd trivial h⟩
  | advance c =>
      obtain ⟨s', hrun, haside, hidle, hm, -⟩ := advances self hp
      exact ⟨s', hrun, haside, hidle, hm, fun h => absurd trivial h⟩
  | giving =>
      obtain ⟨s', hrun, haside, hidle, hm, hhead, hslot⟩ := gives self hp
      exact ⟨s', hrun, haside, hidle, hm, fun _ => ⟨hhead, hslot⟩⟩

/-! ### Runs -/

omit [DecidableEq U] in
theorem Rolling.ready (h : s.Rolling)
    (hne : s.channel.shared.head ≠ s.channel.shared.tail) (ht : s.channel.place none ≠ .consume)
    (hfree : s.channel.shared.command_mutex = false) : s.Ready :=
  ⟨h, hne, ht, fun hm => absurd (hfree.symm.trans hm) Bool.false_ne_true⟩

/-- **Pause and resume do not wedge the thread**, where no `TASK_CMD_PAUSE` is processed.  From
every state with a command pending the handler comes to process a command; it is the one in the
slot, unless a user is about to overwrite that one. -/
theorem pending_processed (self : Int) (b : Board) (t : Task)
    (hr : Reached (step self) (Unpaused self) (started b t) s)
    (hne : s.channel.shared.head ≠ s.channel.shared.tail) (ht : s.channel.place none ≠ .consume) :
    ∃ s' c, Run self s s' ∧ s'.channel.processed = s.channel.processed ++ [c] ∧
      ((∀ u, ¬ (s.channel.place (some u)).stores) → c = s.channel.slot) := by
  have hroll := (started_rolling b t).reached hr
  by_cases hin : ∃ u, (s.channel.place (some u)).inside
  · obtain ⟨u, hu⟩ := hin
    obtain ⟨s₁, hrun₁, haside₁, hidle₁, hfree₁, hslot₁⟩ := leaves self hu hroll.users
    have hroll₁ := hroll.reached hrun₁
    by_cases heq : s₁.channel.shared.head = s₁.channel.shared.tail
    · -- `head` has come round to `tail`: the user sends once more
      obtain ⟨s₂, hrun₂, haside₂, -, hfree₂, hhead₂⟩ :=
        sends self ⟨.none, 0⟩ hidle₁ hfree₁
      have hne₂ : s₂.channel.shared.head ≠ s₂.channel.shared.tail := by
        rw [hhead₂, haside₂.tail, heq]
        intro h
        simp at h
      have htail₂ : s₂.channel.place none ≠ .consume := by
        rw [haside₂.place, haside₁.place]
        exact ht
      obtain ⟨s', hrun', hproc⟩ :=
        ((hroll₁.reached hrun₂).ready hne₂ htail₂ hfree₂).processes self
      refine ⟨s', s₂.channel.slot, (hrun₁.run.trans hrun₂.run).trans hrun', ?_, fun hno => ?_⟩
      · rw [hproc, haside₂.processed, haside₁.processed]
      · obtain ⟨hhead, -⟩ := hslot₁ (hno u)
        rw [hhead, haside₁.tail] at heq
        exact absurd heq hne
    · obtain ⟨s', hrun', hproc⟩ :=
        (hroll₁.ready heq (by rw [haside₁.place]; exact ht) hfree₁).processes self
      refine ⟨s', _, hrun₁.run.trans hrun', ?_, fun hno => (hslot₁ (hno u)).2⟩
      rw [hproc, haside₁.processed]
  · -- only the thread itself can be inside
    have hopen : s.channel.shared.command_mutex = true → (s.channel.place none).inside := by
      intro hm
      obtain ⟨i, hi⟩ := hroll.sole.held hm
      cases i with
      | none => exact hi
      | some u => exact absurd ⟨u, hi⟩ hin
    obtain ⟨s', hrun, hproc⟩ :=
      Ready.processes self ⟨hroll, hne, ht, hopen⟩
    exact ⟨s', _, hrun, hproc, fun _ => rfl⟩

/-- A user sends a command, undisturbed. -/
def sending (u : U) (c : Command) : List (Act U) :=
  .send_command u c :: List.replicate 5 (.access u)

def aBoard : Board := { target_pos := some 0, enable_in := some false }

theorem pending_processed_sample : ∃ s : Station Unit,
    acted (step 0) (sending () (Channel.setTarget 7)) (started aBoard aTask) = some s ∧
    ∃ s', Run 0 s s' ∧ s'.channel.processed = [Channel.setTarget 7] := by
  have hrun : acted (step 0) (sending () (Channel.setTarget 7)) (started aBoard aTask) =
      some _ := rfl
  refine ⟨_, hrun, ?_⟩
  obtain ⟨s', c, hrun', hproc, hslot⟩ :=
    pending_processed 0 aBoard aTask (.of_acted hrun (by decide)) (by decide) (by decide)
  obtain rfl := hslot fun u => id
  exact ⟨s', hrun', hproc⟩

/-! ### A pause -/

/-- The thread waits for a resume that only it could give. -/
structure Wedged (s : Station U) : Prop where
  blocked : s.stage = .blocked
  no_resume : s.task.resume_sem = 0
  users : s.Users

theorem access_sends {ch : Channel (Option U)} {i : Option U}
    (hs : (s.channel.place i).sends) (ha : s.channel.access self i = some ch) :
    ch.processed = s.channel.processed := by
  unfold Channel.access at ha
  cases hp : s.channel.place i with simp only [hp] at ha
  | idle => cases ha
  | trying | compare | load_id | load_data | processing | consume => simp [hp, Place.sends] at hs
  | getting c => split_ifs at ha <;> cases ha <;> rfl
  | store_id | store_data | advance | giving =>
      cases ha
      rfl

theorem Wedged.step (h : s.Wedged) (ha : step self a s = some s') :
    s'.Wedged ∧ s'.channel.processed = s.channel.processed := by
  have husers := h.users.step ha
  cases a with
  | send_command u c =>
      obtain ⟨ch, hch, rfl⟩ := Option.map_eq_some_iff.mp ha
      obtain ⟨-, heq⟩ := Option.ite_none_right_eq_some.mp hch
      cases heq
      exact ⟨⟨h.blocked, h.no_resume, husers⟩, rfl⟩
  | access u =>
      obtain ⟨ch, hch, rfl⟩ := Option.map_eq_some_iff.mp ha
      exact ⟨⟨h.blocked, h.no_resume, husers⟩, access_sends (h.users u) hch⟩
  | cycle =>
      simp [Station.step, cycle, h.blocked, h.no_resume] at ha

/-- Nothing that anyone sends is processed any more. -/
theorem Wedged.run (h : s.Wedged) (hr : Run self s s') :
    s'.channel.processed = s.channel.processed := by
  refine (hr.invariant (I := fun s' => s'.Wedged ∧
    s'.channel.processed = s.channel.processed) ⟨h, rfl⟩ ?_).2
  intro s₁ a s₂ ⟨hw, hp⟩ _ ha
  obtain ⟨hw', hp'⟩ := hw.step ha
  exact ⟨hw', hp'.trans hp⟩

/-- A pause is sent and processed, and then a resume is sent. -/
def pauseThenResume : List (Act Unit) :=
  sending () ⟨.pause, 0⟩ ++ List.replicate 10 .cycle ++ sending () ⟨.resume, 0⟩

/-- The resume is pending, and never processed. -/
theorem pauseThenResume_wedged : ¬ ∀ (self : Int) (b : Board) (t : Task) (s : Station Unit),
    Reached (step self) (fun _ _ => True) (started b t) s →
    s.channel.shared.head ≠ s.channel.shared.tail → s.channel.place none ≠ .consume →
    (∀ u, ¬ (s.channel.place (some u)).stores) →
    ∃ s', Run self s s' ∧ s'.channel.processed = s.channel.processed ++ [s.channel.slot] := by
  intro h
  have hmeets : Meets (step 0) (fun _ _ => True) pauseThenResume (started aBoard aTask) := by
    decide
  have hends : (acted (step 0) pauseThenResume (started aBoard aTask)).any (fun s =>
      s.stage = .blocked ∧ s.task.resume_sem = 0 ∧
      s.channel.shared.head ≠ s.channel.shared.tail ∧ s.channel.place none = .idle ∧
      s.channel.place (some ()) = .idle) := by
    decide
  obtain ⟨s, hrun, hs⟩ := (Option.any_eq_true _ _).mp hends
  obtain ⟨hblocked, hresume, hne, hidle, huser⟩ := of_decide_eq_true hs
  have hout : ∀ u, ¬ (s.channel.place (some u)).stores := fun u => by rw [huser]; exact id
  have htaken : s.channel.place none ≠ .consume := by rw [hidle]; nofun
  obtain ⟨s', hr, hproc⟩ := h 0 aBoard aTask s (.of_acted hrun hmeets) hne htaken hout
  have hwedged : s.Wedged := ⟨hblocked, hresume, fun u => by rw [huser]; trivial⟩
  rw [hwedged.run hr] at hproc
  simp at hproc

end Station

end RTS.ExampleTask

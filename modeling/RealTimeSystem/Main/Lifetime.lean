import RealTimeSystem.Main.Emctask
import RealTimeSystem.System.Application
import RealTimeSystem.System.Lifecycle

/-!
# Main — the life of the process

The stages of `main` say what it has made and not given back, and when the threads may run.  Each
action of anyone keeps what its stage promises.

* **`exit_leaves`**: a process that exits with `0` leaves the threads stopped, the thread of the
  task with nothing to call, no function of the task, and the pins of a component that is gone.
* **`shutdown_unprinted`**: what `emctask_shutdown` reports at the end is never printed.
-/

namespace RTS.Main

open RTS.Support RTS.Hal RTS.Uspace RTS.ExampleTask

/-! ### HAL under the process -/

/-- HAL is up and unlocked, its state agrees with its flag, and its registry is as `P` says. -/
def Serves (P : Registry → Prop) (s : State Machine) : Prop :=
  ∃ L, Inv s L ∧ s.shm.lock = HAL_LOCK_NONE ∧ Hal.Agree s.shm ∧ P (view s.shm L)

/-- The component `comp_id` is that of the task, which is installed. -/
def Furnished (cfg : Config) (comp_id : Int) (g : Registry) : Prop :=
  ∃ x comp, g.findComp comp_id = some (x, comp) ∧ ∃ t f k, Installed cfg g x t f k

/-- The component `x` is gone, with its functions; its pins are left, and the thread of the task,
which calls nothing. -/
def Abandoned (g : Registry) (x t : Nat) : Prop :=
  x ∉ keys g.comps ∧ (∀ f ∈ g.functs, f.2.owner_ptr ≠ x) ∧
    (∀ p ∈ hal_pins, g.HasPin x p.name p.type) ∧
      ∃ th, ⟨t, th, []⟩ ∈ g.threads ∧ th.name = thread_name

theorem abandoned_without {cfg : Config} {g : Registry} {x t f k : Nat}
    (h : Installed cfg g x t f k) : Abandoned (g.without x) x t := by
  obtain ⟨th, es, rest, hthreads, hname, -, -, -, hes⟩ := h.thread
  refine ⟨fun hx => ?_, fun p hp => ?_, h.pins, th, ?_, hname⟩
  · obtain ⟨p, hp, rfl⟩ := List.mem_map.mp hx
    simpa using (List.mem_filter.mp hp).2
  · simpa using (List.mem_filter.mp hp).2
  · -- what the thread calls is the component's
    have howns : ∀ e ∈ es, g.Owns x e.2.funct_ptr := fun e he => by
      have hmem : e.2.funct_ptr ∈ [f, k] := hes ▸ List.mem_map_of_mem he
      obtain ⟨r, hr, ⟨-, -, howner, -⟩, -⟩ := h.handler
      obtain ⟨r', hr', ⟨-, -, howner', -⟩, -⟩ := h.controller
      rcases List.mem_pair.mp hmem with e | e
      · exact ⟨_, hr, e.symm, howner⟩
      · exact ⟨_, hr', e.symm, howner'⟩
    refine List.mem_map.mpr ⟨_, hthreads ▸ List.mem_cons_self, ?_⟩
    rw [List.filter_eq_nil_iff.mpr fun e he => by simpa using howns e he]

variable {P : Registry → Prop} {s s' : State Machine} {K : Kernel} {cfg : Config}

/-- Stopped threads stay stopped. -/
theorem agree_steady (h : Hal.Agree s.shm) (hsteady : Hal.Steady s s') (hid : s.lib_mem_id ≠ 0)
    (hstate : s.shm.state = .active) : Hal.Agree s'.shm ∧ s'.shm.state = .active := by
  have h₀ : s.shm.threads_running = 0 :=
    (h.resolve_left fun h => HalState.noConfusion (h.1.symm.trans hstate)).2
  obtain ⟨-, hs, -, hrunning⟩ := hsteady hid
  have hactive : s'.shm.state = .active := hs.trans hstate
  exact ⟨.inr ⟨hactive, hrunning.elim (fun e => e.trans h₀) And.left⟩, hactive⟩

namespace Serves

theorem mono {P' : Registry → Prop} (h : Serves P s) (hP : ∀ g, P g → P' g) : Serves P' s :=
  have ⟨L, hinv, hlock, hagree, hp⟩ := h
  ⟨L, hinv, hlock, hagree, hP _ hp⟩

theorem started (h : Starts K s) : Serves (fun _ => True) s ∧ s.shm.state = .active :=
  ⟨⟨.empty, h.inv, h.up.lock, h.boots.agree, trivial⟩, h.up.state⟩

/-- RTAPI goes on. -/
theorem calls (h : Serves P s) (rt : Machine) : Serves P { s with rt := rt } := by
  obtain ⟨L, hinv, hrest⟩ := h
  exact ⟨L, ((Moved.refl hinv).outside rt s.ref_cnt s.strikes).inv, hrest⟩

theorem hal_stop_threads {r : Int} (h : Serves P s) (hrun : Hal.hal_stop_threads s = .ok r s') :
    Serves P s' ∧ s'.shm.state = .active := by
  obtain ⟨L, hinv, hlock, hagree, hP⟩ := h
  have hstop : Returns Hal.hal_stop_threads s fun _ s' => Serves P s' ∧ s'.shm.state = .active := by
    unfold Hal.hal_stop_threads
    simp only [returns_bind, returns_get]
    refine .ite (fun h₀ => absurd h₀ hinv.attached) fun _ => .ite (fun hl => ?_) fun _ => ?_
    · exact absurd (by rw [hlock]; rfl) hl
    refine .ite (fun hactive => ⟨⟨L, hinv, hlock, hagree, hP⟩, hactive⟩) fun hactive =>
      .ite (fun hrun => ?_) fun _ => ?_
    · exact absurd (hagree.resolve_right fun h => hactive h.1).1 hrun
    · exact ⟨⟨L, hinv.flags s.shm.lock .active 0, hlock, .inr ⟨rfl, rfl⟩, hP⟩, rfl⟩
  exact hstop.of_ok hrun

theorem hal_start_threads {r : Int} (h : Serves P s) (hrun : Hal.hal_start_threads s = .ok r s') :
    Serves P s' ∧ (r ≠ 0 → s'.shm.state = s.shm.state) := by
  obtain ⟨L, hinv, hlock, hagree, hP⟩ := h
  have hstart : Returns Hal.hal_start_threads s fun r s' =>
      Serves P s' ∧ (r ≠ 0 → s'.shm.state = s.shm.state) := by
    have hsame : Serves P s := ⟨L, hinv, hlock, hagree, hP⟩
    unfold Hal.hal_start_threads
    simp only [returns_bind, returns_get]
    refine .ite (fun _ => ⟨hsame, fun _ => rfl⟩) fun _ => .ite (fun _ => ⟨hsame, fun _ => rfl⟩)
      fun _ => .ite (fun _ => ⟨hsame, fun _ => rfl⟩) fun _ => .ite (fun _ => ⟨hsame, fun _ => rfl⟩)
      fun _ => ?_
    exact ⟨⟨L, hinv.flags s.shm.lock .running 1, hlock, .inl ⟨rfl, rfl⟩, hP⟩,
      fun h => absurd rfl h⟩
  exact hstart.of_ok hrun

/-- A cycle of a thread. -/
theorem cycle {code : Addr → Addr → Int → (Addr → Int) → (Addr → Int)} {t : Nat}
    (h : Serves P s) (ht : s.shm.Listed .thread t)
    (hrun : thread_task_cycle (rtapi K) code t s = .ok () s') :
    Serves P s' ∧ s'.shm.state = s.shm.state := by
  obtain ⟨L, hinv, hrest⟩ := h
  obtain ⟨cs, data, rt, rfl⟩ := cycle_ran hinv (hinv.good.shape.listed.mp ht) hrun
  exact ⟨⟨L, hinv.ran cs data rt, hrest⟩, rfl⟩

/-- A program that leaves the lock and the state alone, while the threads are stopped. -/
theorem does {α : Type} {x : Prog Machine α} {y : Spec Catalog α} {Q : α → Registry → Prop} {a : α}
    (h : Serves P s) (hx : Hal.Tracks x y) (hmode : Spec.Within Catalog.SameMode y)
    (hsteady : Along Hal.Steady x) (hstate : s.shm.state = .active)
    (hQ : ∀ c c', P c.reg → y c a c' → Q a c'.reg) (hrun : x s = .ok a s') :
    Serves (Q a) s' ∧ s'.shm.state = .active := by
  obtain ⟨L, hinv, hlock, hagree, hP⟩ := h
  obtain ⟨_, c', hspec, rfl, L', hinv', rfl⟩ := (hx s L hinv).of_ok hrun
  obtain ⟨hagree', hactive⟩ := agree_steady hagree (hsteady.of_ok hrun) hinv.mem_id hstate
  exact ⟨⟨L', hinv', (hmode _ _ _ hspec).1.trans hlock, hagree', hQ _ _ hP hspec⟩, hactive⟩

end Serves

/-- The component of the task goes. -/
theorem Serves.hal_exit {comp_id r : Int} (h : Serves (Furnished cfg comp_id) s)
    (hstate : s.shm.state = .active) (hrun : Hal.hal_exit (rtapi K) comp_id s = .ok r s') :
    Serves (fun g => ∃ x t, Abandoned g x t) s' ∧ s'.shm.state = .active := by
  obtain ⟨L, hinv, hlock, hagree, x, comp, hfind, t, f, k, hinstalled⟩ := h
  obtain ⟨-, ⟨L', hm⟩, hq, -⟩ := (hal_exit_spec (rtapi K) hinv comp_id).of_ok hrun
  have hd : s.shm.state ≠ .destroyed := by rw [hstate]; exact HalState.noConfusion
  have hparams : (keys (view s.shm L).params).Nodup := by
    rw [view, keys_tab]
    exact (hinv.good.shape.rep .param).used.nodup
  have hview : view s'.shm L' = (view s.shm L).without x := by
    rw [hm.events, Registry.exit, if_neg hd, hfind]
    exact Registry.applyAll_leave hinv.good.sound hparams x
  obtain ⟨hagree', hactive⟩ :=
    agree_steady hagree ((Hal.Steady.keeps.hal_exit comp_id).of_ok hrun) hinv.mem_id hstate
  refine ⟨⟨L', hm.inv, hm.lock.trans hlock, hagree', x, t, ?_⟩, hactive⟩
  rw [hview]
  exact abandoned_without hinstalled

/-! ### The start keeps the flag -/

theorem call_steady {σ α : Type} (g : σ → α × σ) : Along Hal.Steady (Hal.call g) :=
  .modifyGet fun _ => .of_same rfl rfl (.rfl' _)

theorem hal_init_steady {σ : Type} {R : Rtapi σ} (name : Option CStr) :
    Along Hal.Steady (hal_init R name) :=
  Hal.Steady.keeps.hal_init (fun _ => Hal.Steady.of_zero) name

theorem task_thread_phases_steady {σ : Type} {R : Rtapi σ} {cfg : Config} {comp_id : Int} :
    Along Hal.Steady (task_thread_phases R cfg comp_id) := by
  have hkeeps := Hal.Steady.keeps (R := R)
  have hfail : Along Hal.Steady (do let _ ← hal_exit R comp_id; return (-1 : Int)) :=
    .bind (hkeeps.hal_exit comp_id) fun _ => .pure
  have hbuffers : Along Hal.Steady (init_task_comm_buffers R comp_id) :=
    .bind (call_steady _) fun _ => .ite .pure <| .bind (call_steady _) fun _ => .ite .pure .pure
  have hthreads : Along Hal.Steady (init_task_threads R cfg comp_id) :=
    .bind (hkeeps.hal_create_thread Hal.Steady.free_thread_struct (fun _ => Hal.Steady.of_zero)
      _ _ _ _) fun _ => .ite .pure <|
      .bind (hkeeps.hal_export_funct _ _ _ _ _ _) fun _ => .ite .pure <|
      .bind (hkeeps.hal_export_funct _ _ _ _ _ _) fun _ => .ite .pure <|
      .bind (hkeeps.hal_add_funct_to_thread _ _ _) fun _ =>
      .bind (hkeeps.hal_add_funct_to_thread _ _ _) fun _ => .pure
  refine .ite hfail (.bind (init_hal_param_along hkeeps comp_id) fun _ => .ite hfail ?_)
  refine .bind hbuffers fun _ => .ite hfail (.bind hthreads fun _ => .ite hfail ?_)
  exact .bind (hkeeps.hal_ready comp_id) fun _ => .pure

namespace Emctask

variable {Q : Type}

/-! ### The stages of `main` -/

/-- How far `main` is: what it has made and not given back, while it may still exit with `0`. -/
inductive Stage where
  | before | up | registered | installed | ready | starting | looping | stopped | abandoned | failed

def Place.stage : Place → Stage
  | .printfMaster | .hal_app_main => .before
  | .hal_init => .up
  | .task_thread_phases => .registered
  | .task_initialised => .installed
  | .hal_start_threads => .ready
  | .threads_started => .starting
  | .control_loop | .threads .test | .threads .stop => .looping
  | .threads .clear | .stopprintf false => .stopped
  | .shutdown .finish .clear_task | .shutdown .finish .report | .exited 0 => .abandoned
  | .shutdown .finish _ => .stopped
  | .stopprintf true | .shutdown .startup _ | .shutdown .failed _ | .exited _ | .killed => .failed

/-- HAL is up. -/
def Stage.Up : Stage → Prop
  | before | failed => False
  | _ => True

/-- The threads were not started. -/
def Stage.Early : Stage → Prop
  | before | up | registered | installed | ready | starting => True
  | _ => False

/-- `emctask_shutdown` has a task to tear down. -/
def Stage.Owns : Stage → Prop
  | ready | starting | looping | stopped => True
  | _ => False

/-- What is registered then. -/
def Stage.Allows (cfg : Config) (comp_id : Int) (g : Registry) : Stage → Prop
  | before | up | failed => True
  | registered => ∃ x, g.Registers comp_id x
  | abandoned => ∃ x t, Abandoned g x t
  | _ => Furnished cfg comp_id g

/-- The handler is about to stop the threads, or has. -/
def Handler.Stops : Handler → Prop
  | stop | clear => True
  | _ => False

/-- What holds at a stage.  The threads run only from `hal_start_threads` to the next
`hal_stop_threads` of `main` or of a handler, and no handler stops them before. -/
structure Sound (cfg : Config) (w : Emctask Q) (st : Stage) : Prop where
  before : st = .before → w.hal = fresh
  serves : st.Up → Serves (fun g => st.Allows cfg w.mot_comp_id g) w.hal
  running : st.Up → w.hal.shm.state ≠ .active →
    st = .starting ∨ (st = .looping ∧ w.threads_started = true)
  quiet : st.Early → w.threads_started = false ∧ ∀ n, ¬ (w.handlers n).Stops
  cleared : st.Up → ∀ n, w.handlers n = .clear → w.hal.shm.state = .active
  task : st.Owns → w.task_initialised = true

variable {w w' : Emctask Q} {st : Stage} {F : Fifo Q Message 128} {n : Nat}

theorem does_eq {α : Type} {x : Prog Machine α} {k : α → Emctask Q → Emctask Q}
    (h : w.does x k = some w') : ∃ a s, x w.hal = .ok a s ∧ w' = k a { w with hal := s } := by
  unfold does at h
  cases hx : x w.hal with
  | ok a s =>
      rw [hx] at h
      exact ⟨a, s, rfl, (Option.some.inj h).symm⟩
  | error e s =>
      rw [hx] at h
      cases h

/-- A block ends in a place of its own or in the one after it. -/
theorem block_place {b : Block} {at_block : Block → Place} {after : Place} (p : Place → Prop)
    (hw : w.block b at_block after = some w') (hp : ∀ b, p (at_block b)) (hafter : p after) :
    p w'.place := by
  unfold block at hw
  cases b with
  | test =>
      cases hw
      show p (if _ then _ else _)
      split_ifs
      · exact hp .stop
      · exact hafter
  | stop =>
      obtain ⟨_, _, -, rfl⟩ := does_eq hw
      exact hp .clear
  | clear =>
      cases hw
      exact hafter

theorem block_messages {b : Block} {at_block : Block → Place} {after : Place}
    (hw : w.block b at_block after = some w') : w'.messages = w.messages := by
  unfold block at hw
  cases b with
  | stop =>
      obtain ⟨_, _, -, rfl⟩ := does_eq hw
      rfl
  | _ =>
      cases hw
      rfl

theorem hal_get_state_returns (s : State Machine) :
    Returns Hal.hal_get_state s fun _ s' => s' = s := by
  unfold Hal.hal_get_state
  simp only [returns_bind, returns_get]
  exact .ite (fun _ => rfl) fun _ => rfl

namespace Sound

theorem failed : Sound cfg w .failed where
  before := Stage.noConfusion
  serves := False.elim
  running := False.elim
  quiet := False.elim
  cleared := False.elim
  task := False.elim

/-- HAL is up, and the threads are stopped. -/
theorem resting (hst : st ≠ .before) (hactive : w.hal.shm.state = .active)
    (hserves : Serves (fun g => st.Allows cfg w.mot_comp_id g) w.hal)
    (hquiet : st.Early → w.threads_started = false ∧ ∀ n, ¬ (w.handlers n).Stops)
    (htask : st.Owns → w.task_initialised = true) : Sound cfg w st where
  before e := absurd e hst
  serves _ := hserves
  running _ hne := absurd hactive hne
  quiet := hquiet
  cleared _ _ _ := hactive
  task := htask

/-- The threads are stopped but for two stages. -/
theorem active (h : Sound cfg w st) (hup : st.Up) (hs : st ≠ .starting) (hl : st ≠ .looping) :
    w.hal.shm.state = .active :=
  Decidable.by_contra fun hne => (h.running hup hne).elim hs fun h => hl h.1

/-- In the loop the flag tells that they run. -/
theorem unstarted (h : Sound cfg w .looping) (hf : w.threads_started = false) :
    w.hal.shm.state = .active :=
  Decidable.by_contra fun hne => (h.running trivial hne).elim Stage.noConfusion fun h =>
    Bool.noConfusion (h.2.symm.trans hf)

theorem goto (h : Sound cfg w st) (p : Place) : Sound cfg (w.goto p) st :=
  ⟨h.before, h.serves, h.running, h.quiet, h.cleared, h.task⟩

/-- `main` takes a branch. -/
theorem branch {c : Prop} [Decidable c] {p q : Place} (hp : c → Sound cfg w p.stage)
    (hq : ¬ c → Sound cfg w q.stage) :
    Sound cfg (w.goto (if c then p else q)) (if c then p else q).stage := by
  split_ifs with h
  · exact (hp h).goto p
  · exact (hq h).goto q

theorem told (h : Sound cfg w st) (messages : Messages Q) :
    Sound cfg { w with messages := messages } st :=
  ⟨h.before, h.serves, h.running, h.quiet, h.cleared, h.task⟩

/-! #### Beside `main` -/

/-- A handler goes on. -/
theorem handles {h' : Handler} (h : Sound cfg w st) (hquiet : st.Early → ¬ h'.Stops)
    (hcleared : st.Up → h' = .clear → w.hal.shm.state = .active) :
    Sound cfg (w.handles n h') st where
  before := h.before
  serves := h.serves
  running := h.running
  quiet hearly := by
    refine ⟨(h.quiet hearly).1, fun k => ?_⟩
    show ¬ (Function.update w.handlers n h' k).Stops
    rcases eq_or_ne k n with rfl | hk
    · rw [Function.update_self]
      exact hquiet hearly
    · rw [Function.update_of_ne hk]
      exact (h.quiet hearly).2 k
  cleared hup k hk := by
    have hk : Function.update w.handlers n h' k = .clear := hk
    rcases eq_or_ne k n with rfl | hne
    · rw [Function.update_self] at hk
      exact hcleared hup hk
    · rw [Function.update_of_ne hne] at hk
      exact h.cleared hup k hk
  task := h.task

/-- `hal_stop_threads`, by anyone, once the threads were started. -/
theorem stops {r : Int} {s : State Machine} (h : Sound cfg w st) (hearly : ¬ st.Early)
    (hrun : Hal.hal_stop_threads w.hal = .ok r s) :
    Sound cfg { w with hal := s } st ∧ (st.Up → s.shm.state = .active) := by
  have hactive : st.Up → s.shm.state = .active := fun hup =>
    ((h.serves hup).hal_stop_threads hrun).2
  refine ⟨?_, hactive⟩
  exact
    { before := fun e => by
        subst e
        exact absurd trivial hearly
      serves := fun hup => ((h.serves hup).hal_stop_threads hrun).1
      running := fun hup hne => absurd (hactive hup) hne
      quiet := fun he => absurd he hearly
      cleared := fun hup _ _ => hactive hup
      task := h.task }

/-- `threads_started = 0` when they are stopped. -/
theorem clears (h : Sound cfg w st) (hactive : st.Up → w.hal.shm.state = .active) :
    Sound cfg { w with threads_started := false } st where
  before := h.before
  serves := h.serves
  running hup hne := absurd (hactive hup) hne
  quiet hearly := ⟨rfl, (h.quiet hearly).2⟩
  cleared := h.cleared
  task := h.task

/-- A cycle of a thread. -/
theorem cycle {code : Addr → Addr → Int → (Addr → Int) → (Addr → Int)} {t : Nat}
    {s : State Machine} (h : Sound cfg w st) (ht : w.hal.shm.Listed .thread t)
    (hrun : thread_task_cycle (rtapi K) code t w.hal = .ok () s) :
    Sound cfg { w with hal := s } st := by
  have hsame : st.Up → s.shm.state = w.hal.shm.state := fun hup =>
    ((h.serves hup).cycle ht hrun).2
  exact
    { before := fun e => by
        have hfresh := h.before e
        have hidle : ¬ w.hal.shm.threads_running > 0 := by
          rw [hfresh]
          decide
        rw [(thread_task_cycle_idle hidle).of_ok hrun]
        exact hfresh
      serves := fun hup => ((h.serves hup).cycle ht hrun).1
      running := fun hup hne => h.running hup (hsame hup ▸ hne)
      quiet := h.quiet
      cleared := fun hup k hk => (hsame hup).trans (h.cleared hup k hk)
      task := h.task }

theorem flags (h : Sound cfg w st) (in_handler done : Bool) :
    Sound cfg { w with in_handler := in_handler, done := done } st :=
  ⟨h.before, h.serves, h.running, h.quiet, h.cleared, h.task⟩

theorem emctask_quit (h : Sound cfg w st) (hw : emctask_quit n w = some w') :
    Sound cfg w' st := by
  unfold Emctask.emctask_quit at hw
  cases hn : w.handlers n with
  | idle =>
      rw [hn] at hw
      cases hw
  | entered sig =>
      rw [hn] at hw
      cases hw
      exact (h.flags true w.done).handles (fun _ => id) fun _ e => Handler.noConfusion e
  | entering sig =>
      rw [hn] at hw
      cases hw
      exact (h.flags w.in_handler true).handles (fun _ => id) fun _ e => Handler.noConfusion e
  | test sig =>
      rw [hn] at hw
      cases hw
      split_ifs with hstop
      · refine h.handles (fun hearly => ?_) fun _ e => Handler.noConfusion e
        exact absurd ((h.quiet hearly).1.symm.trans hstop.2) Bool.noConfusion
      · exact h.handles (fun _ => id) fun _ e => Handler.noConfusion e
  | stop =>
      rw [hn] at hw
      obtain ⟨r, s, hrun, rfl⟩ := does_eq hw
      have hearly : ¬ st.Early := fun he => (h.quiet he).2 n (hn ▸ trivial)
      obtain ⟨hnext, hactive⟩ := h.stops hearly hrun
      exact hnext.handles (fun he => absurd he hearly) fun hup _ => hactive hup
  | clear =>
      rw [hn] at hw
      cases hw
      exact (h.clears fun hup => h.cleared hup n hn).handles (fun _ => id) fun _ e =>
        Handler.noConfusion e
  | leaving =>
      rw [hn] at hw
      cases hw
      exact (h.flags false w.done).handles (fun _ => id) fun _ e => Handler.noConfusion e

end Sound

/-! #### `main` -/

namespace Sound

theorem hal_app_main {s : State Machine} (h : Sound cfg w .before)
    (hrun : Hal.hal_app_main (rtapi K) w.hal = .ok 0 s) : Sound cfg { w with hal := s } .up := by
  rw [h.before rfl] at hrun
  obtain ⟨hserves, hactive⟩ := Serves.started hrun
  exact resting Stage.noConfusion hactive hserves (fun _ => h.quiet trivial) False.elim

theorem hal_init {s : State Machine} {id : Int} (h : Sound cfg w .up) (hid : 0 ≤ id)
    (hrun : Hal.hal_init (rtapi K) (some task1) w.hal = .ok id s) :
    Sound cfg { w with hal := s, mot_comp_id := id } .registered := by
  obtain ⟨hserves, hactive⟩ := (h.serves trivial).does
    (Q := fun id g => 0 ≤ id → ∃ x, g.Registers id x) (hal_init_named_tracks task1)
    Catalog.hal_init_mode (hal_init_steady _) (h.active trivial Stage.noConfusion Stage.noConfusion)
    (fun _ _ _ hspec hid => (registers_init hid hspec).2) hrun
  exact resting Stage.noConfusion hactive (hserves.mono fun _ hx => hx hid)
    (fun _ => h.quiet trivial) False.elim

theorem task_thread_phases {s : State Machine} {id : Int} (h : Sound cfg w .registered)
    (hrun : ExampleTask.task_thread_phases (rtapi K) cfg w.mot_comp_id w.hal = .ok 0 s) :
    Sound cfg { w with hal := s, emc_shmem_id := id } .installed := by
  obtain ⟨hserves, hactive⟩ := (h.serves trivial).does
    (Q := fun r g => r = 0 → Furnished cfg w.mot_comp_id g) task_thread_phases_tracks
    task_thread_phases_mode task_thread_phases_steady
    (h.active trivial Stage.noConfusion Stage.noConfusion)
    (fun c c' ⟨x, hx⟩ hspec _ => by
      obtain ⟨-, ⟨comp, hfind, -⟩, hinstalled⟩ := task_thread_phases_result hx hspec
      exact ⟨x, comp, hfind, hinstalled⟩) hrun
  exact resting Stage.noConfusion hactive (hserves.mono fun _ hf => hf rfl)
    (fun _ => h.quiet trivial) False.elim

theorem hal_start_threads {s : State Machine} {r : Int} (h : Sound cfg w .ready)
    (hrun : Hal.hal_start_threads w.hal = .ok r s) :
    Sound cfg { w with hal := s } (if r = 0 then .starting else .looping) := by
  obtain ⟨hserves, hsame⟩ := (h.serves trivial).hal_start_threads hrun
  have hactive := h.active trivial Stage.noConfusion Stage.noConfusion
  have hquiet := h.quiet trivial
  have hnone : ∀ n, w.handlers n ≠ .clear := fun n hn => hquiet.2 n (hn ▸ trivial)
  split_ifs with hr
  · exact
      { before := Stage.noConfusion
        serves := fun _ => hserves
        running := fun _ _ => .inl rfl
        quiet := fun _ => hquiet
        cleared := fun _ n hn => absurd hn (hnone n)
        task := fun _ => h.task trivial }
  · exact
      { before := Stage.noConfusion
        serves := fun _ => hserves
        running := fun _ hne => absurd ((hsame hr).trans hactive) hne
        quiet := False.elim
        cleared := fun _ n hn => absurd hn (hnone n)
        task := fun _ => h.task trivial }

theorem threads_started (h : Sound cfg w .starting) :
    Sound cfg { w with threads_started := true } .looping where
  before := Stage.noConfusion
  serves _ := h.serves trivial
  running _ _ := .inr ⟨rfl, rfl⟩
  quiet := False.elim
  cleared _ n hn := absurd (hn ▸ trivial) ((h.quiet trivial).2 n)
  task _ := h.task trivial

/-- The threads are stopped for good. -/
theorem stopped (h : Sound cfg w .looping) (hactive : w.hal.shm.state = .active) :
    Sound cfg w .stopped :=
  resting Stage.noConfusion hactive (h.serves trivial) False.elim fun _ => h.task trivial

/-- RTAPI goes on. -/
theorem calls (h : Sound cfg w .stopped) (rt : Machine) :
    Sound cfg { w with hal := { w.hal with rt := rt } } .stopped where
  before := Stage.noConfusion
  serves _ := (h.serves trivial).calls rt
  running := h.running
  quiet := False.elim
  cleared := h.cleared
  task := h.task

theorem hal_exit {s : State Machine} {r : Int} (h : Sound cfg w .stopped)
    (hrun : Hal.hal_exit (rtapi K) w.mot_comp_id w.hal = .ok r s) :
    Sound cfg { w with hal := s } .abandoned := by
  have hactive := h.active trivial Stage.noConfusion Stage.noConfusion
  obtain ⟨hserves, hactive⟩ := (h.serves trivial).hal_exit hactive hrun
  exact resting Stage.noConfusion hactive hserves False.elim False.elim

/-- `emctask_shutdown` after a start that failed. -/
theorem shutdown_failed {c : Caller} {at_stage : Shutdown} (hc : c ≠ .finish)
    (hw : emctask_shutdown K F w c at_stage = some w') : w'.place.stage = .failed := by
  have hplace : ∀ at_stage, (Place.shutdown c at_stage).stage = .failed := by
    intro at_stage
    cases c with
    | finish => exact absurd rfl hc
    | _ => rfl
  have hafter : c.after.stage = .failed := by
    cases c with
    | finish => exact absurd rfl hc
    | _ => rfl
  unfold emctask_shutdown at hw
  cases at_stage with
  | threads b => exact block_place (·.stage = .failed) hw (fun _ => hplace _) (hplace _)
  | test_task =>
      cases hw
      exact hplace _
  | clear_task =>
      cases hw
      exact hplace _
  | report =>
      obtain ⟨_, _, -, rfl⟩ := does_eq hw
      exact hafter
  | _ =>
      obtain ⟨_, _, -, rfl⟩ := does_eq hw
      exact hplace _

/-- `emctask_shutdown` at the end of `main`. -/
theorem shutdown_finish {at_stage : Shutdown}
    (h : Sound cfg w (Place.shutdown .finish at_stage).stage)
    (hw : emctask_shutdown K F w .finish at_stage = some w') : Sound cfg w' w'.place.stage := by
  unfold emctask_shutdown at hw
  cases at_stage with
  | threads b =>
      unfold block at hw
      have hactive := h.active trivial Stage.noConfusion Stage.noConfusion
      cases b with
      | test =>
          cases hw
          exact branch (fun _ => h) fun _ => h
      | stop =>
          obtain ⟨r, s, hrun, rfl⟩ := does_eq hw
          exact (h.stops id hrun).1.goto _
      | clear =>
          cases hw
          exact (h.clears fun _ => hactive).goto _
  | test_task =>
      cases hw
      show Sound cfg _ (Place.stage (.shutdown .finish (if _ then _ else _)))
      rw [if_pos (h.task trivial)]
      exact h.goto _
  | stop_threads =>
      obtain ⟨r, s, hrun, rfl⟩ := does_eq hw
      exact (h.stops id hrun).1.goto _
  | shmem_delete =>
      obtain ⟨r, s, hrun, rfl⟩ := does_eq hw
      cases hrun
      exact (h.calls _).goto _
  | hal_exit =>
      obtain ⟨r, s, hrun, rfl⟩ := does_eq hw
      exact (h.hal_exit hrun).goto _
  | clear_task =>
      cases hw
      exact ⟨h.before, h.serves, h.running, h.quiet, h.cleared, False.elim⟩
  | report =>
      obtain ⟨st, s, hrun, rfl⟩ := does_eq hw
      obtain rfl := (hal_get_state_returns _).of_ok hrun
      exact (h.told _).goto _

theorem main {r : Int} (h : Sound cfg w w.place.stage) (hw : main K F cfg r w = some w') :
    Sound cfg w' w'.place.stage := by
  unfold Emctask.main at hw
  cases hp : w.place with
  | printfMaster =>
      rw [hp] at hw h
      obtain ⟨messages, -, rfl⟩ := Option.map_eq_some_iff.mp hw
      exact branch (fun _ => failed) fun _ => (h.told messages).goto .printfMaster
  | hal_app_main =>
      rw [hp] at hw h
      obtain ⟨r, s, hrun, rfl⟩ := does_eq hw
      refine branch (fun _ => failed) fun hr => ?_
      obtain rfl := not_not.mp hr
      exact h.hal_app_main hrun
  | hal_init =>
      rw [hp] at hw h
      obtain ⟨id, s, hrun, rfl⟩ := does_eq hw
      exact branch (fun _ => failed) fun hid => h.hal_init (Int.not_lt.mp hid) hrun
  | task_thread_phases =>
      rw [hp] at hw h
      obtain ⟨retval, s, hrun, rfl⟩ := does_eq hw
      refine branch (fun _ => failed) fun hr => ?_
      obtain rfl := not_not.mp hr
      exact h.task_thread_phases hrun
  | task_initialised =>
      rw [hp] at hw h
      cases hw
      exact ⟨Stage.noConfusion, h.serves, fun hup hne =>
        absurd (h.active hup Stage.noConfusion Stage.noConfusion) hne, h.quiet, h.cleared,
        fun _ => rfl⟩
  | hal_start_threads =>
      rw [hp] at hw h
      obtain ⟨r, s, hrun, rfl⟩ := does_eq hw
      have hnext := h.hal_start_threads hrun
      refine branch (fun hr => ?_) fun hr => ?_
      · rwa [if_pos hr] at hnext
      · rwa [if_neg hr] at hnext
  | threads_started =>
      rw [hp] at hw h
      cases hw
      exact h.threads_started.goto _
  | control_loop =>
      rw [hp] at hw h
      cases hw
      exact branch (fun _ => h) fun _ => h
  | threads b =>
      rw [hp] at hw h
      unfold block at hw
      cases b with
      | test =>
          cases hw
          exact branch (fun _ => h) fun hf =>
            h.stopped (h.unstarted (Bool.eq_false_of_not_eq_true hf))
      | stop =>
          obtain ⟨r, s, hrun, rfl⟩ := does_eq hw
          obtain ⟨hnext, hactive⟩ := h.stops id hrun
          exact (hnext.stopped (hactive trivial)).goto _
      | clear =>
          cases hw
          have hactive := h.active trivial Stage.noConfusion Stage.noConfusion
          exact (h.clears fun _ => hactive).goto _
  | stopprintf b =>
      rw [hp] at hw h
      dsimp only at hw
      split_ifs at hw with hret hr hb
      · cases hw
        exact failed
      · cases hw
        exact failed
      · cases hw
        rw [Bool.eq_false_of_not_eq_true hb] at h
        exact h.goto _
      · obtain ⟨messages, -, rfl⟩ := Option.map_eq_some_iff.mp hw
        exact (h.told messages).goto (.stopprintf b)
  | shutdown c at_stage =>
      rw [hp] at hw h
      cases c with
      | finish => exact h.shutdown_finish hw
      | _ =>
          rw [shutdown_failed Caller.noConfusion hw]
          exact failed
  | exited status =>
      rw [hp] at hw
      cases hw
  | killed =>
      rw [hp] at hw
      cases hw

end Sound

theorem emctask_quit_place (hw : emctask_quit n w = some w') : w'.place = w.place := by
  unfold emctask_quit at hw
  cases hn : w.handlers n with
  | idle =>
      rw [hn] at hw
      cases hw
  | stop =>
      rw [hn] at hw
      obtain ⟨_, _, -, rfl⟩ := does_eq hw
      rfl
  | _ =>
      rw [hn] at hw
      cases hw
      rfl

/-- What a stage promises, every action keeps. -/
theorem Sound.step {a : Act} (h : Sound cfg w w.place.stage) (hp : Proper w a)
    (hw : step K F cfg a w = some w') : Sound cfg w' w'.place.stage := by
  unfold Emctask.step at hw
  split_ifs at hw
  cases a with
  | main r => exact h.main hw
  | signal n sig =>
      dsimp only [Emctask.signal] at hw
      split_ifs at hw
      · cases hw
        exact failed
      · cases hw
        exact h.handles (fun _ => id) fun _ e => Handler.noConfusion e
  | emctask_quit n =>
      rw [emctask_quit_place hw]
      exact h.emctask_quit hw
  | cycle code t =>
      obtain ⟨_, s, hrun, rfl⟩ := does_eq hw
      exact h.cycle hp hrun
  | message a =>
      obtain ⟨messages, -, rfl⟩ := Option.map_eq_some_iff.mp hw
      exact h.told _

/-- A process before `main`. -/
def launched (messages : Messages Q) : Emctask Q := { hal := fresh, messages := messages }

theorem reached_sound {m : Messages Q} (h : Reached (step K F cfg) Proper (launched m) w) :
    Sound cfg w w.place.stage := by
  refine h.invariant (I := fun w => Sound cfg w w.place.stage) ?_
    fun _ _ _ hs hp hw => hs.step hp hw
  exact
    { before := fun _ => rfl
      serves := False.elim
      running := False.elim
      quiet := fun _ => ⟨rfl, fun _ => id⟩
      cleared := False.elim
      task := False.elim }

/-! ### A run -/

abbrev runs : Act → Emctask (List Message) → Option (Emctask (List Message)) :=
  step serving (.list Message 128) one_axis

/-- The state after the actions. -/
@[irreducible]
def played (as : List Act) : Emctask (List Message) :=
  (acted runs as (launched { rtapi_msg_queue := [] })).getD (launched { rtapi_msg_queue := [] })

/-- From the start into the loop, where a SIGTERM comes and the handler stops the threads. -/
def signalled : List Act :=
  List.replicate 8 (.main 0) ++ [.signal 0 .sigterm] ++ List.replicate 6 (.emctask_quit 0)

/-- Then `main` leaves the loop, and `stopprintf` stops the printing. -/
def terminated : List Act :=
  signalled ++ (List.replicate 3 (.main 0) ++ [.message .queue_function] ++
    List.replicate 3 (.main 0))

/-- Then `emctask_shutdown`, up to the exit. -/
def ended : List Act := List.replicate 7 (.main 0)

theorem run_proper (a : Act) (ha : a ∈ terminated ++ ended) (w : Emctask (List Message)) :
    Proper w a := by
  simp only [terminated, signalled, ended, List.mem_append, List.mem_replicate,
    List.mem_singleton] at ha
  rcases ha with ((((⟨-, rfl⟩ | rfl) | ⟨-, rfl⟩) | ((⟨-, rfl⟩ | rfl) | ⟨-, rfl⟩)) | ⟨-, rfl⟩)
  · trivial
  · trivial
  · trivial
  · trivial
  · exact ⟨Messages.Act.noConfusion, fun _ => Messages.Act.noConfusion⟩
  · trivial
  · trivial

theorem acted_played {as : List Act}
    (h : (acted runs as (launched { rtapi_msg_queue := [] })).isSome = true) :
    acted runs as (launched { rtapi_msg_queue := [] }) = some (played as) := by
  obtain ⟨w, hw⟩ := Option.isSome_iff_exists.mp h
  rw [played, hw, Option.getD_some]

theorem played_reached {as : List Act} (has : as ⊆ terminated ++ ended)
    (h : (acted runs as (launched { rtapi_msg_queue := [] })).isSome = true) :
    Reached runs Proper (launched { rtapi_msg_queue := [] }) (played as) :=
  .of_acted (acted_played h) (.of_forall (fun a ha w => run_proper a (has ha) w) _)

/-! ### The exit -/

/-- What is left in the segment: of the component `x` its pins alone, and the thread `t`, stopped
and with an empty schedule. -/
structure Leftover (m : Segment) (x t : Nat) : Prop where
  stopped : m.state = .active ∧ m.threads_running = 0
  comp : ¬ m.Listed .comp x
  functs : ∀ f, m.Listed .funct f → (m.funct f).owner_ptr ≠ x
  pins : ∀ p ∈ hal_pins, ∃ y, m.Listed .pin y ∧ (m.pin y).name = p.name ∧
    (m.pin y).type = p.type ∧ (m.pin y).owner_ptr = x
  thread : m.Listed .thread t ∧ (m.thread t).name = thread_name
  schedule : Ring m.arena.links (t + THREAD_FUNCT_LIST) []

/-- **What `exit(0)` leaves**, whatever signals came and whenever. -/
theorem exit_leaves {m : Messages Q} (h : Reached (step K F cfg) Proper (launched m) w)
    (hexit : w.place = .exited 0) : ∃ x t, Leftover w.hal.shm x t := by
  have hsound := reached_sound h
  rw [hexit] at hsound
  have hactive := hsound.active trivial Stage.noConfusion Stage.noConfusion
  obtain ⟨L, hinv, -, hagree, x, t, hcomp, hfuncts, hpins, th, hslot, hname⟩ :=
    hsound.serves trivial
  have hshape := hinv.good.shape
  refine ⟨x, t, ?_⟩
  exact
    { stopped := hagree.resolve_left fun h => HalState.noConfusion (h.1.symm.trans hactive)
      comp := fun hx => hcomp <| by
        rw [view, keys_tab]
        exact hshape.listed.mp hx
      functs := fun f hf => hfuncts (f, _) (mem_tab.mpr ⟨hshape.listed.mp hf, rfl⟩)
      pins := fun p hp => by
        obtain ⟨⟨y, rec⟩, hmem, hrec⟩ := hpins p hp
        have hmem : y ∈ L.act .pin ∧ rec = w.hal.shm.pin y := mem_tab.mp hmem
        obtain ⟨hy, rfl⟩ := hmem
        exact ⟨y, hshape.listed.mpr hy, hrec⟩
      thread := by
        obtain ⟨t', ht', e⟩ := List.mem_map.mp hslot
        obtain rfl : t' = t := congrArg Slot.off e
        obtain rfl : w.hal.shm.thread t' = th := congrArg Slot.thread e
        exact ⟨hshape.listed.mpr ht', hname⟩
      schedule := (hshape.holds.rings _ hslot).1 }

theorem exit_leaves_sample : ∃ x t, Leftover (played (terminated ++ ended)).hal.shm x t :=
  exit_leaves (played_reached (List.Subset.refl _) (by decide +kernel)) (by decide +kernel)

/-! ### What is printed -/

/-- `main` is past `stopprintf`, on its way to `exit(0)`. -/
def Place.Finishing : Place → Prop
  | shutdown .finish _ | exited 0 => True
  | _ => False

theorem Place.Finishing.stage_ne {p : Place} (h : p.Finishing) : p.stage ≠ .failed := by
  cases p with
  | shutdown c at_stage =>
      cases c with
      | finish => cases at_stage <;> exact Stage.noConfusion
      | _ => exact h.elim
  | exited status =>
      cases status with
      | zero => exact Stage.noConfusion
      | succ _ => exact h.elim
  | _ => exact h.elim

theorem not_finishing {c : Prop} [Decidable c] {p q : Place} (hp : ¬ p.Finishing)
    (hq : ¬ q.Finishing) : ¬ (if c then p else q).Finishing := by
  split_ifs
  · exact hp
  · exact hq

/-- The messages are as before, or took a step of their own. -/
def Relays (F : Fifo Q Message 128) (w w' : Emctask Q) : Prop :=
  w'.messages = w.messages ∨ ∃ a, Messages.step F a w.messages = some w'.messages

theorem Relays.sealed {ms : List Message} (h : Relays F w w')
    (hs : Messages.Sealed ms w.messages) : Messages.Sealed ms w'.messages := by
  rcases h with e | ⟨a, ha⟩
  · rwa [e]
  · exact hs.step ha

theorem Relays.balanced (h : Relays F w w') (hb : Messages.Balanced F w.messages) :
    Messages.Balanced F w'.messages := by
  rcases h with e | ⟨a, ha⟩
  · rwa [e]
  · exact hb.step ha

theorem relays_map {a : Messages.Act} {k : Messages Q → Emctask Q}
    (hk : ∀ messages, (k messages).messages = messages)
    (h : (Messages.step F a w.messages).map k = some w') : Relays F w w' := by
  obtain ⟨messages, hm, rfl⟩ := Option.map_eq_some_iff.mp h
  exact .inr ⟨a, hm.trans (congrArg some (hk messages).symm)⟩

theorem shutdown_relays {c : Caller} {at_stage : Shutdown}
    (hw : emctask_shutdown K F w c at_stage = some w') : Relays F w w' := by
  unfold emctask_shutdown at hw
  cases at_stage with
  | threads b => exact .inl (block_messages hw)
  | test_task | clear_task =>
      cases hw
      exact .inl rfl
  | report =>
      obtain ⟨st, s, -, rfl⟩ := does_eq hw
      cases hm : Messages.step F (.rtapi_print_msg .info (final_state st)) w.messages with
      | none => exact .inl (by simp only [goto, report, hm, Option.getD_none])
      | some messages =>
          exact .inr ⟨_, hm.trans (by simp only [goto, report, hm, Option.getD_some])⟩
  | _ =>
      obtain ⟨_, _, -, rfl⟩ := does_eq hw
      exact .inl rfl

theorem main_relays {r : Int} (hw : main K F cfg r w = some w') : Relays F w w' := by
  unfold main at hw
  cases hp : w.place with
  | printfMaster =>
      rw [hp] at hw
      exact relays_map (fun _ => rfl) hw
  | threads b =>
      rw [hp] at hw
      exact .inl (block_messages hw)
  | stopprintf b =>
      rw [hp] at hw
      dsimp only at hw
      split_ifs at hw
      · cases hw
        exact .inl rfl
      · cases hw
        exact .inl rfl
      · cases hw
        exact .inl rfl
      · exact relays_map (fun _ => rfl) hw
  | shutdown c at_stage =>
      rw [hp] at hw
      exact shutdown_relays hw
  | task_initialised | threads_started | control_loop =>
      rw [hp] at hw
      cases hw
      exact .inl rfl
  | exited _ | killed =>
      rw [hp] at hw
      cases hw
  | _ =>
      rw [hp] at hw
      obtain ⟨_, _, -, rfl⟩ := does_eq hw
      exact .inl rfl

/-- `main` gets past `stopprintf` when that is at its end. -/
theorem main_finishing {r : Int} (hw : main K F cfg r w = some w') (hf : w'.place.Finishing) :
    w.place.Finishing ∨ w.messages.stop = .ended := by
  unfold main at hw
  cases hp : w.place with
  | printfMaster =>
      rw [hp] at hw
      obtain ⟨_, -, rfl⟩ := Option.map_eq_some_iff.mp hw
      exact absurd hf (not_finishing id id)
  | hal_app_main | hal_init | task_thread_phases | hal_start_threads =>
      rw [hp] at hw
      obtain ⟨_, _, -, rfl⟩ := does_eq hw
      exact absurd hf (not_finishing id id)
  | task_initialised | threads_started =>
      rw [hp] at hw
      cases hw
      exact hf.elim
  | control_loop =>
      rw [hp] at hw
      cases hw
      exact absurd hf (not_finishing id id)
  | threads b =>
      rw [hp] at hw
      exact (block_place (¬ ·.Finishing) hw (fun _ => id) id hf).elim
  | stopprintf b =>
      rw [hp] at hw
      dsimp only at hw
      split_ifs at hw with hret
      · exact .inr hret
      · exact .inr hret
      · exact .inr hret
      · obtain ⟨_, -, rfl⟩ := Option.map_eq_some_iff.mp hw
        exact hf.elim
  | shutdown c at_stage =>
      rw [hp] at hw
      cases c with
      | finish => exact .inl trivial
      | _ => exact absurd (Sound.shutdown_failed Caller.noConfusion hw) hf.stage_ne
  | exited _ | killed =>
      rw [hp] at hw
      cases hw

theorem step_relays {a : Act} (hw : step K F cfg a w = some w') :
    Relays F w w' ∧ (w'.place.Finishing → w.place.Finishing ∨ w.messages.stop = .ended) := by
  unfold step at hw
  split_ifs at hw
  cases a with
  | main r => exact ⟨main_relays hw, main_finishing hw⟩
  | signal n sig =>
      dsimp only [signal] at hw
      split_ifs at hw
      · cases hw
        exact ⟨.inl rfl, False.elim⟩
      · cases hw
        exact ⟨.inl rfl, .inl⟩
  | emctask_quit n =>
      refine ⟨.inl ?_, fun hf => .inl (emctask_quit_place hw ▸ hf)⟩
      dsimp only [emctask_quit] at hw
      cases hn : w.handlers n with
      | idle =>
          rw [hn] at hw
          cases hw
      | stop =>
          rw [hn] at hw
          obtain ⟨_, _, -, rfl⟩ := does_eq hw
          rfl
      | _ =>
          rw [hn] at hw
          cases hw
          rfl
  | cycle code t =>
      obtain ⟨_, _, -, rfl⟩ := does_eq hw
      exact ⟨.inl rfl, .inl⟩
  | message a =>
      refine ⟨relays_map (fun _ => rfl) hw, fun hf => .inl ?_⟩
      obtain ⟨_, -, rfl⟩ := Option.map_eq_some_iff.mp hw
      exact hf

theorem reached_balanced {q : Q} (hq : F.contents q = [])
    (h : Reached (step K F cfg) Proper (launched { rtapi_msg_queue := q }) w) :
    Messages.Balanced F w.messages :=
  h.invariant (I := fun w => Messages.Balanced F w.messages) (.start hq) fun _ _ _ hb _ hw =>
    (step_relays hw).1.balanced hb

theorem sealed_of_ended (hb : Messages.Balanced F w.messages)
    (hret : w.messages.stop = .ended) : Messages.Sealed w.messages.printed w.messages :=
  ⟨hret, hb.alone (hret ▸ trivial), rfl⟩

/-- Past `stopprintf`, that is at its end. -/
theorem finishing_ended {q : Q} (hq : F.contents q = [])
    (h : Reached (step K F cfg) Proper (launched { rtapi_msg_queue := q }) w)
    (hf : w.place.Finishing) : w.messages.stop = .ended := by
  induction h with
  | start => exact hf.elim
  | next h _ hw ih =>
      obtain ⟨hrelays, hcome⟩ := step_relays hw
      have hret := (hcome hf).elim ih id
      exact (hrelays.sealed (sealed_of_ended (reached_balanced hq h) hret)).ended

/-- **What is never printed.**  Once `main` is in its last `emctask_shutdown`, no more of the queue
gets printed: neither what the task says of its shutdown nor the final state of HAL. -/
theorem shutdown_unprinted {q : Q} {at_stage : Shutdown} (hq : F.contents q = [])
    (h : Reached (step K F cfg) Proper (launched { rtapi_msg_queue := q }) w)
    (hw : w.place = .shutdown .finish at_stage) (hlater : Reached (step K F cfg) Proper w w') :
    w'.messages.printed = w.messages.printed := by
  have hret := finishing_ended hq h (hw ▸ trivial)
  have hsealed := sealed_of_ended (reached_balanced hq h) hret
  exact (hlater.invariant (I := fun v => Messages.Sealed w.messages.printed v.messages) hsealed
    fun _ _ _ hs _ hw => (step_relays hw).1.sealed hs).printed

theorem played_later :
    Reached runs Proper (played terminated) (played (terminated ++ ended)) :=
  .of_acted ((acted_append (acted_played (by decide +kernel))).symm.trans
    (acted_played (by decide +kernel)))
    (.of_forall (fun a ha w => run_proper a (List.mem_append_right _ ha) w) _)

/-- The final state of HAL is in the queue. -/
theorem shutdown_unprinted_sample : (played (terminated ++ ended)).messages.accepted ≠ [] ∧
    (played (terminated ++ ended)).messages.printed = (played terminated).messages.printed :=
  ⟨by decide +kernel, shutdown_unprinted rfl
    (played_reached (List.subset_append_left _ _) (by decide +kernel))
    (show (played terminated).place = .shutdown .finish (.threads .test) by decide +kernel)
    played_later⟩

end Emctask

end RTS.Main

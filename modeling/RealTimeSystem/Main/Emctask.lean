import RealTimeSystem.System.Startup
import RealTimeSystem.Uspace.Messages

/-!
# Main — the process

`main` with `emctask_startup` and `emctask_shutdown`, beside the handler `emctask_quit` on any
threads, the real-time threads, and those who print.  A call of HAL is one action, and so is each
access to a flag that `main` and the handler share; what the threads do within a call of HAL is not
interleaved with it.  The timer, the latencies and most texts are left out.
-/

namespace RTS.Main

open RTS.Support RTS.Hal RTS.Uspace RTS.ExampleTask

/-- What `main` handles. -/
inductive Signal where
  | sigint | sigterm
  deriving DecidableEq

/-! ### The parties -/

namespace Emctask

/-- Where a block is that stops the threads: before the test of `threads_started`, the call, and the
store. -/
inductive Block where
  | test | stop | clear
  deriving DecidableEq

/-- Where `emctask_shutdown` is: in its block, before the test of `task_initialised`, in
`task_thread_exit`, before the store, and before its report. -/
inductive Shutdown where
  | threads (b : Block)
  | test_task | stop_threads | shmem_delete | hal_exit | clear_task
  | report
  deriving DecidableEq

/-- Who calls it: `emctask_startup`, `main` when that has failed, `main` at its end. -/
inductive Caller where
  | startup | failed | finish
  deriving DecidableEq

/-- Where `main` is: in `emctask_startup`, before and after `hal_start_threads`, in the loop, in its
block, in `stopprintf`, in `emctask_shutdown`, and at its end, by itself or by a handler. -/
inductive Place where
  | printfMaster | hal_app_main | hal_init | task_thread_phases | task_initialised
  | hal_start_threads | threads_started | control_loop
  | threads (b : Block)
  | stopprintf (failed : Bool)
  | shutdown (c : Caller) (at_stage : Shutdown)
  | exited (status : Nat)
  | killed
  deriving DecidableEq

/-- Where a handler is: past the test of `in_handler`, past the two stores, in its branch, and
before the store at its end. -/
inductive Handler where
  | idle
  | entered (sig : Signal)
  | entering (sig : Signal)
  | test (sig : Signal)
  | stop | clear | leaving
  deriving DecidableEq

end Emctask

/-- The process. -/
structure Emctask (Q : Type) where
  hal : State Machine
  messages : Messages Q
  place : Emctask.Place := .printfMaster
  done : Bool := false
  task_initialised : Bool := false
  threads_started : Bool := false
  in_handler : Bool := false
  mot_comp_id : Int := 0
  emc_shmem_id : Int := 0
  handlers : Nat → Emctask.Handler := fun _ => .idle

namespace Emctask

variable {Q : Type}

/-- A call of HAL. -/
def does {α : Type} (w : Emctask Q) (x : Prog Machine α) (k : α → Emctask Q → Emctask Q) :
    Option (Emctask Q) :=
  match x w.hal with
  | .ok a s => some (k a { w with hal := s })
  | .error _ _ => none

def goto (w : Emctask Q) (p : Place) : Emctask Q := { w with place := p }

/-- A block that stops the threads, with its places and the one after it. -/
def block (w : Emctask Q) (b : Block) (at_block : Block → Place) (after : Place) :
    Option (Emctask Q) :=
  match b with
  | .test => some (w.goto (if w.threads_started then at_block .stop else after))
  | .stop => w.does Hal.hal_stop_threads fun _ w => w.goto (at_block .clear)
  | .clear => some ({ w with threads_started := false }.goto after)

/-- A `hal_state_t` as `%d` shows it. -/
def state_text : HalState → CStr
  | .uninit => lit ['0']
  | .initializing => lit ['1']
  | .active => lit ['2']
  | .running => lit ['3']
  | .shutting_down => lit ['4']
  | .destroyed => lit ['5']
  | .error => lit ['-', '1']

/-- The text of the report: `"main: final HAL state = %d%s\n"`. -/
def final_state (st : HalState) : CStr :=
  lit "main: final HAL state = ".toList ++ state_text st ++
    lit (if st = .destroyed then " (DESTROYED)\n" else "\n").toList

/-- Where `main` goes on after `emctask_shutdown`. -/
def Caller.after : Caller → Place
  | .startup => .shutdown .failed (.threads .test)
  | .failed => .stopprintf true
  | .finish => .exited 0

section
variable (K : Kernel) (F : Fifo Q Message 128) (cfg : Config)

/-- A message of `main`'s own thread. -/
def report (w : Emctask Q) (level : MsgLevel) (text : CStr) : Emctask Q :=
  { w with messages := (Messages.step F (.rtapi_print_msg level text) w.messages).getD w.messages }

def emctask_shutdown (w : Emctask Q) (c : Caller) : Shutdown → Option (Emctask Q)
  | .threads b => w.block b (fun b => .shutdown c (.threads b)) (.shutdown c .test_task)
  | .test_task =>
      some (w.goto (.shutdown c (if w.task_initialised then .stop_threads else .report)))
  | .stop_threads => w.does Hal.hal_stop_threads fun _ w => w.goto (.shutdown c .shmem_delete)
  | .shmem_delete =>
      w.does (Hal.call ((rtapi K).shmem_delete w.emc_shmem_id w.mot_comp_id)) fun _ w =>
        w.goto (.shutdown c .hal_exit)
  | .hal_exit =>
      w.does (Hal.hal_exit (rtapi K) w.mot_comp_id) fun _ w => w.goto (.shutdown c .clear_task)
  | .clear_task => some ({ w with task_initialised := false }.goto (.shutdown c .report))
  | .report =>
      w.does Hal.hal_get_state fun st w => (w.report F .info (final_state st)).goto c.after

/-- The next action of `main`; `r` is what it gets from outside: the result of `pthread_create`, the
handle that the task keeps, or 0 when control comes back from `stopprintf`. -/
def main (r : Int) (w : Emctask Q) : Option (Emctask Q) :=
  match w.place with
  | .printfMaster =>
      (Messages.step F (.printfMaster r) w.messages).map fun messages =>
        { w with messages }.goto
          (if r ≠ 0 then .shutdown .failed (.threads .test) else .hal_app_main)
  | .hal_app_main =>
      w.does (Hal.hal_app_main (rtapi K)) fun r w =>
        w.goto (if r ≠ 0 then .shutdown .failed (.threads .test) else .hal_init)
  | .hal_init =>
      w.does (Hal.hal_init (rtapi K) (some task1)) fun id w =>
        { w with mot_comp_id := id }.goto
          (if id < 0 then .shutdown .startup (.threads .test) else .task_thread_phases)
  | .task_thread_phases =>
      w.does (ExampleTask.task_thread_phases (rtapi K) cfg w.mot_comp_id) fun retval w =>
        { w with emc_shmem_id := r }.goto
          (if retval ≠ 0 then .shutdown .startup (.threads .test) else .task_initialised)
  | .task_initialised => some ({ w with task_initialised := true }.goto .hal_start_threads)
  | .hal_start_threads =>
      w.does Hal.hal_start_threads fun r w =>
        w.goto (if r = 0 then .threads_started else .control_loop)
  | .threads_started => some ({ w with threads_started := true }.goto .control_loop)
  | .control_loop => some (w.goto (if w.done then .threads .test else .control_loop))
  | .threads b => w.block b .threads (.stopprintf false)
  | .stopprintf failed =>
      if w.messages.stop = .ended then
        -- `stopprintf` has no `return`: what a compiler makes of its end may kill the process
        some (w.goto (if r ≠ 0 then .killed else if failed then .exited 1
          else .shutdown .finish (.threads .test)))
      else
        (Messages.step F .stopprintf w.messages).map fun messages => { w with messages }
  | .shutdown c at_stage => emctask_shutdown K F w c at_stage
  | .exited _ => none
  | .killed => none

end

/-- A handler at its next place. -/
def handles (w : Emctask Q) (n : Nat) (h : Handler) : Emctask Q :=
  { w with handlers := Function.update w.handlers n h }

/-- A signal comes: `emctask_quit` tests `in_handler`. -/
def signal (n : Nat) (sig : Signal) (w : Emctask Q) : Option (Emctask Q) :=
  if w.handlers n = .idle then
    some (if w.in_handler then w.goto .killed else w.handles n (.entered sig))
  else none

/-- The next action of a handler. -/
def emctask_quit (n : Nat) (w : Emctask Q) : Option (Emctask Q) :=
  match w.handlers n with
  | .idle => none
  | .entered sig => some ({ w with in_handler := true }.handles n (.entering sig))
  | .entering sig => some ({ w with done := true }.handles n (.test sig))
  | .test sig =>
      some (w.handles n (if sig = .sigterm ∧ w.threads_started then .stop else .leaving))
  | .stop => w.does Hal.hal_stop_threads fun _ w => w.handles n .clear
  | .clear => some ({ w with threads_started := false }.handles n .leaving)
  | .leaving => some ({ w with in_handler := false }.handles n .idle)

inductive Act where
  | main (r : Int)
  | signal (n : Nat) (sig : Signal)
  | emctask_quit (n : Nat)
  | cycle (code : Addr → Addr → Int → (Addr → Int) → (Addr → Int)) (thread : Nat)
  | message (a : Messages.Act)

/-- The process has ended. -/
def Place.over : Place → Bool
  | exited _ | killed => true
  | _ => false

def step (K : Kernel) (F : Fifo Q Message 128) (cfg : Config) (a : Act) (w : Emctask Q) :
    Option (Emctask Q) :=
  if w.place.over then none
  else match a with
    | .main r => main K F cfg r w
    | .signal n sig => signal n sig w
    | .emctask_quit n => emctask_quit n w
    | .cycle code t => w.does (thread_task_cycle (rtapi K) code t) fun _ w => w
    | .message a => (Messages.step F a w.messages).map fun messages => { w with messages }

/-- The cycles are those of HAL's threads, and only `main` starts and stops the printing. -/
def Proper (w : Emctask Q) : Act → Prop
  | .cycle _ t => w.hal.shm.Listed .thread t
  | .message a => a ≠ .stopprintf ∧ ∀ r, a ≠ .printfMaster r
  | _ => True

end Emctask

end RTS.Main

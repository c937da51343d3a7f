import RealTimeSystem.Hal.Layout
import RealTimeSystem.Support.Fifo
import RealTimeSystem.Support.Steps

/-!
# Uspace — the messages

`rtapi_print_msg` puts a message in `rtapi_msg_queue`, from any thread.  The thread that
`printfMaster` makes takes them out and prints them, in `queue_function`; `stopprintf` cancels that
thread, joins it, and prints what is left.

`boost::lockfree::queue` is a `Fifo` with room for 128 messages.  Each action below is one access to
what the threads share: a `push`, a `pop`, an `fputs`, a change of the cancel state, a cancellation
point.

* **`messages_in_order`**: each accepted message is printed at most once, in order, and none is
  refused while fewer than 128 wait.
* **`messages_flushed`**: what the queue prints in the end is what was accepted before `stopprintf`
  found it empty.
* **`stopprintf_ends`**: `stopprintf` gets there when no more messages come.

`stopprintf` is an `int` function of C++ without a `return`: what happens behind the end of its body
is undefined, and nothing here says that its caller goes on.
-/

namespace RTS.Uspace

open RTS.Support

/-! ### Messages -/

/-- `msg_level_t`. -/
inductive MsgLevel where
  | none | err | warn | info | dbg | all
  deriving DecidableEq

/-- `message_t`. -/
structure Message where
  level : MsgLevel
  msg : CStr
  deriving DecidableEq

/-- `sizeof(m.msg)`, as a `msg_level_t` has four bytes. -/
def MSG_SIZE : Nat := 1024 - 4

/-- What the handlers make of a text: `vsnprintf` cuts it to the size, with its NUL. -/
def message (level : MsgLevel) (text : CStr) : Message :=
  ⟨level, (text.take (MSG_SIZE - 1)).takeWhile (· ≠ 0)⟩

inductive Stream where
  | stdout | stderr
  deriving DecidableEq

def Message.out (m : Message) : Stream := if m.level = .all then .stdout else .stderr

/-- What the messages look like on a stream. -/
def Stream.text (f : Stream) (ms : List Message) : CStr :=
  (ms.filter fun m => m.out = f).flatMap Message.msg

/-! ### The threads -/

namespace Messages

/-- Where `queue_function` is: before the cancellation point, before the two changes of the cancel
state, in `consume_all`, there before the `fputs` of a message. -/
inductive Place where
  | testcancel | disable | consume_all | fputs (m : Message) | enable
  deriving DecidableEq

/-- The thread of `queue_function`: where it is, its cancel state, and whether it was cancelled. -/
structure Reader where
  place : Place := .testcancel
  enabled : Bool := true
  cancelled : Bool := false
  deriving DecidableEq

/-- What `queue_thread` stands for. -/
inductive Thread where
  | absent
  | running (r : Reader)
  | ended
  deriving DecidableEq

/-- `pthread_cancel`. -/
def Thread.cancel : Thread → Thread
  | running r => running { r with cancelled := true }
  | t => t

/-- Where the thread is that stops the printing: before `stopprintf`, in `pthread_join`, in
`consume_all`, there before an `fputs`, and at the end of its body. -/
inductive Stop where
  | before | join | consume_all | fputs (m : Message) | ended
  deriving DecidableEq

/-- An `fputs`, of a message from the queue or of `print_msg`. -/
structure Line where
  m : Message
  queued : Bool

end Messages

/-- The queue and who works on it; with the messages it accepted, and what was written, oldest
first. -/
structure Messages (Q : Type) where
  rtapi_msg_queue : Q
  queue_thread : Messages.Thread := .absent
  stop : Messages.Stop := .before
  accepted : List Message := []
  written : List Messages.Line := []

namespace Messages

variable {Q : Type}

/-- The messages from the queue that were written. -/
def printed (w : Messages Q) : List Message :=
  (w.written.filter Line.queued).map Line.m

def write (w : Messages Q) (m : Message) (queued : Bool) : Messages Q :=
  { w with written := w.written ++ [⟨m, queued⟩] }

section
variable (F : Fifo Q Message 128)

/-- The reader at its next place. -/
def goes (w : Messages Q) (r : Reader) : Messages Q := { w with queue_thread := .running r }

/-- At a cancellation point the thread ends when it was cancelled and can be. -/
def cancellation (w : Messages Q) (r : Reader) (go : Messages Q) : Messages Q :=
  if r.cancelled ∧ r.enabled then { w with queue_thread := .ended } else go

/-- The next access of `queue_function`.  An `fputs` may be a cancellation point. -/
def queue_function (w : Messages Q) (r : Reader) : Messages Q :=
  match r.place with
  | .testcancel => w.cancellation r (w.goes { r with place := .disable })
  | .disable => w.goes { r with enabled := false, place := .consume_all }
  | .consume_all =>
      match F.pop w.rtapi_msg_queue with
      | some (m, q) => { w with rtapi_msg_queue := q }.goes { r with place := .fputs m }
      | none => w.goes { r with place := .enable }
  | .fputs m => w.cancellation r ((w.write m true).goes { r with place := .consume_all })
  | .enable => w.goes { r with enabled := true, place := .testcancel }

/-- The next access of `stopprintf`, up to the end of its body; there is no `return` there. -/
def stopprintf (w : Messages Q) : Option (Messages Q) :=
  match w.stop with
  | .before =>
      if w.queue_thread ≠ .absent then
        some { w with queue_thread := w.queue_thread.cancel, stop := .join }
      else
        some { w with stop := .ended }
  | .join => if w.queue_thread = .ended then some { w with stop := .consume_all } else none
  | .consume_all =>
      match F.pop w.rtapi_msg_queue with
      | some (m, q) => some { w with rtapi_msg_queue := q, stop := .fputs m }
      | none => some { w with stop := .ended }
  | .fputs m => some { w.write m true with stop := .consume_all }
  | .ended => none

inductive Act where
  | rtapi_print_msg (level : MsgLevel) (text : CStr)
  | print_msg (level : MsgLevel) (text : CStr)
  | printfMaster (result : Int)
  | queue_function
  | stopprintf
  deriving DecidableEq

/-- `printfMaster` is called once, and `pthread_create` returns `result`; so is `stopprintf`.  What
`push` returns is not looked at. -/
def step : Act → Messages Q → Option (Messages Q)
  | .rtapi_print_msg level text, w =>
      match F.push (message level text) w.rtapi_msg_queue with
      | some q => some { w with
          rtapi_msg_queue := q, accepted := w.accepted ++ [message level text] }
      | none => some w
  | .print_msg level text, w => some (w.write (message level text) false)
  | .printfMaster result, w =>
      if w.stop ≠ .before ∨ w.queue_thread ≠ .absent then none
      else if result ≠ 0 then some w
      else some (w.goes {})
  | .queue_function, w =>
      match w.queue_thread with
      | .running r => some (queue_function F w r)
      | _ => none
  | .stopprintf, w => stopprintf F w

end

/-! ### The ledger -/

/-- What a thread has popped and not yet written. -/
def Place.hand : Place → List Message
  | fputs m => [m]
  | _ => []

/-- Where the thread cannot be cancelled. -/
def Place.masked : Place → Bool
  | testcancel | disable => false
  | _ => true

def Thread.hand : Thread → List Message
  | running r => r.place.hand
  | _ => []

def Stop.hand : Stop → List Message
  | fputs m => [m]
  | _ => []

/-- The thread was cancelled. -/
def Thread.Asked : Thread → Prop
  | absent => False
  | running r => r.cancelled
  | ended => True

/-- `stopprintf` has joined the reader. -/
def Stop.joined : Stop → Prop
  | before | join => False
  | _ => True

/-- The ledger balances, the cancel state is that of the place, `stopprintf` waits for a reader that
was cancelled, and pops alone. -/
structure Balanced (F : Fifo Q Message 128) (w : Messages Q) : Prop where
  ledger : F.Ledger w.accepted w.printed (w.queue_thread.hand ++ w.stop.hand) w.rtapi_msg_queue
  masked : ∀ r, w.queue_thread = .running r → r.enabled = !r.place.masked
  asked : w.stop = .join → w.queue_thread.Asked
  alone : w.stop.joined → ∀ r, w.queue_thread ≠ .running r

variable {F : Fifo Q Message 128} {w w' w'' : Messages Q} {q : Q} {r : Reader} {m : Message}

@[simp]
theorem printed_write (queued : Bool) :
    (w.write m queued).printed = if queued then w.printed ++ [m] else w.printed := by
  cases queued <;> simp [printed, write]

namespace Balanced

theorem start (hq : F.contents q = []) : Balanced F { rtapi_msg_queue := q } where
  ledger := by
    unfold Fifo.Ledger
    rw [hq]
    rfl
  masked := fun r h => by cases h
  asked := fun h => by cases h
  alone := fun h => h.elim

/-- While the reader runs, `stopprintf` has nothing in hand. -/
theorem hand_stop (h : Balanced F w) (hr : w.queue_thread = .running r) : w.stop.hand = [] := by
  cases hs : w.stop with
  | fputs m => exact absurd hr (h.alone (hs ▸ trivial) r)
  | _ => rfl

/-- The ledger while the reader runs. -/
theorem reading (h : Balanced F w) (hr : w.queue_thread = .running r) :
    F.Ledger w.accepted w.printed r.place.hand w.rtapi_msg_queue := by
  have hledger := h.ledger
  rwa [h.hand_stop hr, List.append_nil, hr] at hledger

/-- The reader goes on, when the ledger balances with what it has in hand. -/
theorem goes {v : Messages Q} {r' : Reader} (h : Balanced F w) (hr : w.queue_thread = .running r)
    (hstop : v.stop = w.stop) (hcancel : r'.cancelled = r.cancelled)
    (hmask : r'.enabled = !r'.place.masked)
    (hledger : F.Ledger v.accepted v.printed r'.place.hand v.rtapi_msg_queue) :
    Balanced F (v.goes r') where
  ledger := by
    show F.Ledger v.accepted v.printed (r'.place.hand ++ v.stop.hand) v.rtapi_msg_queue
    rwa [hstop, h.hand_stop hr, List.append_nil]
  masked := by
    intro r'' e
    cases e
    exact hmask
  asked := by
    intro hjoin
    have hasked := h.asked (hstop.symm.trans hjoin)
    rw [hr] at hasked
    exact hcancel.trans hasked
  alone := by
    intro hjoined
    rw [show (v.goes r').stop = w.stop from hstop] at hjoined
    exact absurd hr (h.alone hjoined r)

/-- The reader ends, with nothing in hand. -/
theorem ends (h : Balanced F w) (hr : w.queue_thread = .running r) (hhand : r.place.hand = []) :
    Balanced F { w with queue_thread := .ended } where
  ledger := by
    show F.Ledger w.accepted w.printed ([] ++ w.stop.hand) w.rtapi_msg_queue
    rw [h.hand_stop hr, List.append_nil, ← hhand]
    exact h.reading hr
  masked := by
    intro r' e
    cases e
  asked := fun _ => trivial
  alone := by
    intro _ r' e
    cases e

/-- In `consume_all` the reader cannot be cancelled, so it writes what it has popped. -/
theorem queue_function (h : Balanced F w) (hr : w.queue_thread = .running r) :
    Balanced F (queue_function F w r) := by
  have hmask := h.masked r hr
  have hledger := h.reading hr
  unfold Messages.queue_function
  cases hp : r.place with
  | testcancel =>
      rw [hp] at hledger
      unfold cancellation
      split_ifs
      · exact h.ends hr (by rw [hp]; rfl)
      · exact h.goes hr rfl rfl (by rw [hmask, hp]; rfl) hledger
  | disable =>
      rw [hp] at hledger
      exact h.goes hr rfl rfl rfl hledger
  | consume_all =>
      rw [hp] at hmask hledger
      cases hpop : F.pop w.rtapi_msg_queue with
      | none =>
          refine h.goes hr rfl rfl ?_ ?_
          · exact hmask
          · exact hledger
      | some p =>
          refine h.goes hr rfl rfl ?_ ?_
          · exact hmask
          · exact hledger.pop hpop
  | fputs m =>
      rw [hp] at hmask hledger
      dsimp only
      rw [cancellation, if_neg (by rw [hmask]; exact fun hc => Bool.noConfusion hc.2)]
      refine h.goes hr rfl rfl ?_ ?_
      · exact hmask
      · rw [printed_write]
        exact hledger.pass
  | enable =>
      rw [hp] at hledger
      exact h.goes hr rfl rfl rfl hledger

/-- `stopprintf` pops when the reader has ended. -/
theorem stops {v : Messages Q} (hr : ∀ r, w.queue_thread ≠ .running r)
    (hthread : v.queue_thread = w.queue_thread) (hjoin : v.stop ≠ .join)
    (hledger : F.Ledger v.accepted v.printed v.stop.hand v.rtapi_msg_queue) : Balanced F v where
  ledger := by
    have hhand : v.queue_thread.hand = [] := by
      rw [hthread]
      cases hw : w.queue_thread with
      | running r => exact absurd hw (hr r)
      | _ => rfl
    rwa [hhand, List.nil_append]
  masked := by
    intro r e
    exact absurd (hthread ▸ e) (hr r)
  asked := fun h => absurd h hjoin
  alone := by
    intro _ r
    rw [hthread]
    exact hr r

/-- The ledger when the reader has ended. -/
theorem stopping (h : Balanced F w) (hr : ∀ r, w.queue_thread ≠ .running r) :
    F.Ledger w.accepted w.printed w.stop.hand w.rtapi_msg_queue := by
  have hledger := h.ledger
  cases hw : w.queue_thread with
  | running r => exact absurd hw (hr r)
  | _ => rwa [hw] at hledger

/-- A cancelled reader is where it was. -/
theorem cancel (h : Balanced F w) (hs : w.stop = .before) (ht : w.queue_thread ≠ .absent) :
    Balanced F { w with queue_thread := w.queue_thread.cancel, stop := .join } where
  ledger := by
    have hledger := h.ledger
    rw [hs] at hledger
    cases hw : w.queue_thread with
    | _ => rwa [hw] at hledger
  masked := by
    intro r e
    cases hw : w.queue_thread with
    | running r' =>
        rw [hw] at e
        cases e
        exact h.masked r' hw
    | _ =>
        rw [hw] at e
        cases e
  asked := by
    intro _
    cases hw : w.queue_thread with
    | absent => exact absurd hw ht
    | _ => trivial
  alone := fun hjoined => hjoined.elim

theorem stopprintf (h : Balanced F w) (hw : stopprintf F w = some w') : Balanced F w' := by
  unfold Messages.stopprintf at hw
  cases hs : w.stop with
  | before =>
      rw [hs] at hw
      dsimp only at hw
      split_ifs at hw with ht
      · cases hw
        exact h.cancel hs ht
      · cases hw
        have hr : ∀ r, w.queue_thread ≠ .running r := fun r e => by
          rw [not_not.mp ht] at e
          cases e
        have hledger := h.stopping hr
        rw [hs] at hledger
        exact stops hr rfl Stop.noConfusion hledger
  | join =>
      rw [hs] at hw
      dsimp only at hw
      split_ifs at hw with ht
      cases hw
      have hr : ∀ r, w.queue_thread ≠ .running r := fun r e => by
        rw [ht] at e
        cases e
      have hledger := h.stopping hr
      rw [hs] at hledger
      exact stops hr rfl Stop.noConfusion hledger
  | consume_all =>
      have hr := h.alone (hs ▸ trivial)
      have hledger := h.stopping hr
      rw [hs] at hw hledger
      cases hpop : F.pop w.rtapi_msg_queue with
      | none =>
          rw [hpop] at hw
          cases hw
          exact stops hr rfl Stop.noConfusion hledger
      | some p =>
          rw [hpop] at hw
          cases hw
          exact stops hr rfl Stop.noConfusion (hledger.pop hpop)
  | fputs m =>
      have hr := h.alone (hs ▸ trivial)
      have hledger := h.stopping hr
      rw [hs] at hw hledger
      cases hw
      refine stops hr rfl Stop.noConfusion ?_
      show F.Ledger _ (w.write m true).printed _ _
      rw [printed_write]
      exact hledger.pass
  | ended =>
      rw [hs] at hw
      cases hw

/-- **Each access keeps the books.** -/
theorem step {a : Act} (h : Balanced F w) (ha : step F a w = some w') : Balanced F w' := by
  cases a with
  | rtapi_print_msg level text =>
      cases hpush : F.push (message level text) w.rtapi_msg_queue with
      | none =>
          simp only [Messages.step, hpush] at ha
          cases ha
          exact h
      | some q =>
          simp only [Messages.step, hpush] at ha
          cases ha
          exact ⟨h.ledger.push hpush, h.masked, h.asked, h.alone⟩
  | print_msg level text =>
      cases ha
      refine ⟨?_, h.masked, h.asked, h.alone⟩
      show F.Ledger _ (w.write _ false).printed _ _
      rw [printed_write]
      exact h.ledger
  | printfMaster result =>
      simp only [Messages.step] at ha
      split_ifs at ha with hw hr
      · cases ha
        exact h
      · cases ha
        obtain ⟨hbefore, habsent⟩ := not_or.mp hw
        have hr : ∀ r, w.queue_thread ≠ .running r := fun r e => by
          rw [not_not.mp habsent] at e
          cases e
        have hledger := h.stopping hr
        refine ⟨?_, fun r e => ?_, fun hjoin => ?_, fun hjoined => ?_⟩
        · rw [not_not.mp hbefore] at hledger
          show F.Ledger w.accepted w.printed ([] ++ w.stop.hand) w.rtapi_msg_queue
          rwa [not_not.mp hbefore]
        · cases e
          rfl
        · exact absurd ((not_not.mp hbefore).symm.trans hjoin) Stop.noConfusion
        · have hj : w.stop.joined := hjoined
          rw [not_not.mp hbefore] at hj
          exact hj.elim
  | queue_function =>
      cases hr : w.queue_thread with
      | running r =>
          simp only [Messages.step, hr] at ha
          cases ha
          exact h.queue_function hr
      | _ =>
          simp only [Messages.step, hr] at ha
          cases ha
  | stopprintf => exact h.stopprintf ha

theorem reached (h : Balanced F w) (hr : Reached (Messages.step F) (fun _ _ => True) w w') :
    Balanced F w' :=
  hr.invariant h fun _ _ _ hb _ ha => hb.step ha

/-- One message is in hand at most. -/
theorem hand_length (h : Balanced F w) : (w.queue_thread.hand ++ w.stop.hand).length ≤ 1 := by
  cases hr : w.queue_thread with
  | running r =>
      rw [h.hand_stop hr, List.append_nil]
      show r.place.hand.length ≤ 1
      cases r.place <;> simp [Place.hand]
  | _ => cases w.stop <;> simp [Thread.hand, Stop.hand]

end Balanced

/-- The messages that are printed, at the beginning of those that were accepted, are there on each
stream. -/
theorem text_isPrefix {ms ms' : List Message} (h : ms <+: ms') (f : Stream) :
    f.text ms <+: f.text ms' := by
  obtain ⟨rest, rfl⟩ := h
  refine ⟨f.text rest, ?_⟩
  unfold Stream.text
  rw [List.filter_append, List.flatMap_append]

/-- **In order, each once.**  The accepted messages are those that are printed, at most one that the
reader or `stopprintf` has in hand, and those in the queue; a message is refused when 128 are not
printed. -/
theorem messages_in_order (hq : F.contents q = [])
    (h : Reached (step F) (fun _ _ => True) { rtapi_msg_queue := q } w) :
    (∃ hand : List Message, hand.length ≤ 1 ∧
      w.accepted = w.printed ++ hand ++ F.contents w.rtapi_msg_queue) ∧
    (∀ f : Stream, f.text w.printed <+: f.text w.accepted) ∧
    ∀ m, F.push m w.rtapi_msg_queue = none → w.printed.length + 128 ≤ w.accepted.length := by
  have hb := (Balanced.start hq).reached h
  exact ⟨⟨_, hb.hand_length, hb.ledger⟩, text_isPrefix hb.ledger.passed_isPrefix,
    fun m hm => hb.ledger.full hm⟩

/-! ### The end of the printing -/

/-- `stopprintf` is at its end, and the reader is gone. -/
structure Sealed (ms : List Message) (w : Messages Q) : Prop where
  ended : w.stop = .ended
  gone : ∀ r, w.queue_thread ≠ .running r
  printed : w.printed = ms

theorem Sealed.step {ms : List Message} {a : Act} (h : Sealed ms w) (ha : step F a w = some w') :
    Sealed ms w' := by
  cases a with
  | rtapi_print_msg level text =>
      cases hpush : F.push (message level text) w.rtapi_msg_queue with
      | _ =>
          simp only [Messages.step, hpush] at ha
          cases ha
          exact ⟨h.ended, h.gone, h.printed⟩
  | print_msg level text =>
      cases ha
      refine ⟨h.ended, h.gone, ?_⟩
      rw [printed_write]
      exact h.printed
  | printfMaster result =>
      rw [Messages.step, if_pos (.inl (by rw [h.ended]; exact Stop.noConfusion))] at ha
      cases ha
  | queue_function =>
      cases hr : w.queue_thread with
      | running r => exact absurd hr (h.gone r)
      | _ =>
          simp only [Messages.step, hr] at ha
          cases ha
  | stopprintf =>
      simp only [Messages.step, Messages.stopprintf, h.ended] at ha
      cases ha

/-- It ends when the queue is empty and all is printed. -/
theorem Balanced.sealed (h : Balanced F w) (hs : w.stop ≠ .before)
    (hw : Messages.stopprintf F w = some w') (hret : w'.stop = .ended) :
    Sealed w.accepted w' := by
  unfold Messages.stopprintf at hw
  cases hstop : w.stop with
  | before => exact absurd hstop hs
  | join =>
      rw [hstop] at hw
      dsimp only at hw
      split_ifs at hw
      cases hw
      cases hret
  | consume_all =>
      have hr := h.alone (hstop ▸ trivial)
      have hledger := h.stopping hr
      rw [hstop] at hw hledger
      cases hpop : F.pop w.rtapi_msg_queue with
      | none =>
          rw [hpop] at hw
          cases hw
          exact ⟨rfl, hr, hledger.drained hpop⟩
      | some p =>
          rw [hpop] at hw
          cases hw
          cases hret
  | fputs m =>
      rw [hstop] at hw
      cases hw
      cases hret
  | ended =>
      rw [hstop] at hw
      cases hw

/-- **What is printed in the end.**  Once `stopprintf` is at its end, which the last of its accesses
in `w` does, the messages printed are those that were accepted until then, for ever. -/
theorem messages_flushed (hq : F.contents q = [])
    (h : Reached (step F) (fun _ _ => True) { rtapi_msg_queue := q } w) (hs : w.stop ≠ .before)
    (hw : step F .stopprintf w = some w') (hret : w'.stop = .ended)
    (hlater : Reached (step F) (fun _ _ => True) w' w'') : w''.printed = w.accepted :=
  have hsealed := ((Balanced.start hq).reached h).sealed hs hw hret
  (hlater.invariant hsealed fun _ _ _ hi _ ha => hi.step ha).printed

/-! ### The way there -/

/-- How many accesses a cancelled reader has left, with `n` messages in the queue. -/
def Place.left (n : Nat) : Place → Nat
  | testcancel => 1
  | enable => 2
  | consume_all => 2 * n + 3
  | _ => 2 * n + 4

/-- `stopprintf` waits for its reader; `ms` were accepted. -/
structure Joining (F : Fifo Q Message 128) (ms : List Message) (w : Messages Q) : Prop where
  balanced : Balanced F w
  join : w.stop = .join
  accepted : w.accepted = ms

/-- The work that is left to the reader. -/
def todo (F : Fifo Q Message 128) (w : Messages Q) : Nat :=
  match w.queue_thread with
  | .running r => r.place.left (F.contents w.rtapi_msg_queue).length
  | _ => 0

theorem queue_function_kept : (queue_function F w r).stop = w.stop ∧
    (queue_function F w r).accepted = w.accepted := by
  unfold queue_function
  cases r.place with
  | testcancel | fputs m =>
      dsimp only [cancellation]
      split_ifs <;> exact ⟨rfl, rfl⟩
  | consume_all => cases F.pop w.rtapi_msg_queue <;> exact ⟨rfl, rfl⟩
  | _ => exact ⟨rfl, rfl⟩

/-- A reader that was cancelled gets nearer to its end with each access. -/
theorem queue_function_less (h : Balanced F w) (hr : w.queue_thread = .running r)
    (hc : r.cancelled) : (queue_function F w r).queue_thread = .ended ∨
      todo F (queue_function F w r) < todo F w := by
  have hmask := h.masked r hr
  have htodo : todo F w = r.place.left (F.contents w.rtapi_msg_queue).length := by
    rw [todo, hr]
  rw [htodo]
  unfold queue_function
  cases hp : r.place with
  | testcancel =>
      rw [hp] at hmask
      dsimp only
      rw [cancellation, if_pos ⟨hc, hmask⟩]
      exact .inl rfl
  | consume_all =>
      dsimp only
      cases hpop : F.pop w.rtapi_msg_queue with
      | none => exact .inr (Nat.lt_add_left _ (Nat.lt_succ_self 2))
      | some p =>
          refine .inr ?_
          rw [F.pop_some hpop, List.length_cons]
          show 2 * (F.contents p.2).length + 4 < 2 * ((F.contents p.2).length + 1) + 3
          omega
  | fputs m =>
      rw [hp] at hmask
      dsimp only
      rw [cancellation, if_neg (by rw [hmask]; exact fun hc => Bool.noConfusion hc.2)]
      exact .inr (Nat.lt_succ_self _)
  | disable => exact .inr (Nat.lt_succ_self _)
  | enable => exact .inr (Nat.lt_succ_self _)

/-- The reader alone comes to its end. -/
theorem Joining.ends {ms : List Message} (h : Joining F ms w) :
    ∃ n w', acted (step F) (List.replicate n .queue_function) w = some w' ∧
      Joining F ms w' ∧ w'.queue_thread = .ended := by
  by_cases hend : w.queue_thread = .ended
  · exact ⟨0, w, rfl, h, hend⟩
  refine acted_until (P := fun w => Joining F ms w ∧ w.queue_thread ≠ .ended) (todo F)
    (fun w ⟨h, hne⟩ => ?_) ⟨h, hend⟩
  have hasked := h.balanced.asked h.join
  cases hr : w.queue_thread with
  | absent =>
      rw [hr] at hasked
      exact hasked.elim
  | ended => exact absurd hr hne
  | running r =>
      rw [hr] at hasked
      obtain ⟨hstop, hacc⟩ := queue_function_kept (F := F) (w := w) (r := r)
      have hnext : Joining F ms (queue_function F w r) :=
        ⟨h.balanced.queue_function hr, hstop.trans h.join, hacc.trans h.accepted⟩
      refine ⟨queue_function F w r, by simp only [step, hr], ?_⟩
      by_cases hend' : (queue_function F w r).queue_thread = .ended
      · exact .inl ⟨hnext, hend'⟩
      · exact .inr ⟨⟨hnext, hend'⟩, (queue_function_less h.balanced hr hasked).resolve_left hend'⟩

/-- How many accesses `stopprintf` has left in its `consume_all`. -/
def Stop.left (n : Nat) : Stop → Nat
  | fputs _ => 2 * n + 2
  | _ => 2 * n + 1

/-- The reader has ended, and `stopprintf` has not. -/
structure Draining (F : Fifo Q Message 128) (ms : List Message) (w : Messages Q) : Prop where
  balanced : Balanced F w
  joined : w.stop.joined
  inside : w.stop ≠ .ended
  accepted : w.accepted = ms

/-- Alone it comes to the end of the queue. -/
theorem Draining.ends {ms : List Message} (h : Draining F ms w) :
    ∃ n w', acted (step F) (List.replicate n .stopprintf) w = some w' ∧ Sealed ms w' := by
  refine acted_until (P := Draining F ms)
    (fun w => w.stop.left (F.contents w.rtapi_msg_queue).length) (fun w h => ?_) h
  have hjoined := h.joined
  cases hs : w.stop with
  | before | join =>
      rw [hs] at hjoined
      exact hjoined.elim
  | ended => exact absurd hs h.inside
  | consume_all =>
      cases hpop : F.pop w.rtapi_msg_queue with
      | none =>
          have hw : stopprintf F w = some { w with stop := .ended } := by
            simp only [stopprintf, hs, hpop]
          refine ⟨_, hw, .inl (h.accepted ▸ h.balanced.sealed ?_ hw rfl)⟩
          rw [hs]
          exact Stop.noConfusion
      | some p =>
          have hw : stopprintf F w =
              some { w with rtapi_msg_queue := p.2, stop := .fputs p.1 } := by
            simp only [stopprintf, hs, hpop]
          refine ⟨_, hw, .inr ⟨⟨h.balanced.stopprintf hw, trivial, Stop.noConfusion, h.accepted⟩,
            ?_⟩⟩
          rw [F.pop_some hpop, List.length_cons]
          show 2 * (F.contents p.2).length + 2 < 2 * ((F.contents p.2).length + 1) + 1
          omega
  | fputs m =>
      have hw : stopprintf F w = some { w.write m true with stop := .consume_all } := by
        simp only [stopprintf, hs]
      exact ⟨_, hw, .inr ⟨⟨h.balanced.stopprintf hw, trivial, Stop.noConfusion, h.accepted⟩,
        Nat.lt_succ_self _⟩⟩

/-- First the reader, then `stopprintf`. -/
theorem Balanced.comes_to_end (h : Balanced F w) (hs : w.stop ≠ .before) (hin : w.stop ≠ .ended) :
    ∃ n k w₁ w', acted (Messages.step F) (List.replicate n .queue_function) w = some w₁ ∧
      acted (Messages.step F) (List.replicate k .stopprintf) w₁ = some w' ∧
        Sealed w.accepted w' := by
  by_cases hjoin : w.stop = .join
  · obtain ⟨n, w₁, hn, h₁, hended⟩ := Joining.ends ⟨h, hjoin, rfl⟩
    have hw : Messages.stopprintf F w₁ = some { w₁ with stop := .consume_all } := by
      simp only [Messages.stopprintf, h₁.join, hended, if_true]
    obtain ⟨k, w', hk, hsealed⟩ := Draining.ends
      ⟨h₁.balanced.stopprintf hw, trivial, Stop.noConfusion, h₁.accepted⟩
    refine ⟨n, k + 1, w₁, w', hn, ?_, hsealed⟩
    rw [List.replicate_succ, acted, show Messages.step F .stopprintf w₁ = _ from hw]
    exact hk
  · have hjoined : w.stop.joined := by
      cases hstop : w.stop with
      | before => exact absurd hstop hs
      | join => exact absurd hstop hjoin
      | _ => trivial
    obtain ⟨k, w', hk, hsealed⟩ := Draining.ends ⟨h, hjoined, hin, rfl⟩
    exact ⟨0, k, w, w', rfl, hk, hsealed⟩

/-- **`stopprintf` comes to its end.**  Wherever it is, the reader and then `stopprintf` itself get
there when no more messages come, and all that were accepted are printed. -/
theorem stopprintf_ends (hq : F.contents q = [])
    (h : Reached (step F) (fun _ _ => True) { rtapi_msg_queue := q } w) (hs : w.stop ≠ .before)
    (hin : w.stop ≠ .ended) :
    ∃ n k w', acted (step F)
        (List.replicate n .queue_function ++ List.replicate k .stopprintf) w = some w' ∧
      w'.stop = .ended ∧ w'.printed = w.accepted := by
  obtain ⟨n, k, w₁, w', hn, hk, hsealed⟩ := ((Balanced.start hq).reached h).comes_to_end hs hin
  exact ⟨n, k, w', (acted_append hn).trans hk, hsealed.ended, hsealed.printed⟩

/-! ### A stop in the middle -/

abbrev lists : Fifo (List Message) Message 128 := .list Message 128

def empty : Messages (List Message) := { rtapi_msg_queue := [] }

/-- The state after the accesses. -/
@[irreducible]
def played (as : List Act) : Messages (List Message) := (acted (step lists) as empty).getD empty

theorem acted_played (as : List Act) (h : (acted (step lists) as empty).isSome = true) :
    acted (step lists) as empty = some (played as) := by
  obtain ⟨w, hw⟩ := Option.isSome_iff_exists.mp h
  rw [played, hw, Option.getD_some]

theorem acted_played_append (as bs : List Act) (h : (acted (step lists) as empty).isSome = true)
    (h' : (acted (step lists) (as ++ bs) empty).isSome = true) :
    acted (step lists) bs (played as) = some (played (as ++ bs)) :=
  (acted_append (acted_played as h)).symm.trans (acted_played (as ++ bs) h')

theorem step_played (as : List Act) (a : Act) (h : (acted (step lists) as empty).isSome = true)
    (h' : (acted (step lists) (as ++ [a]) empty).isSome = true) :
    step lists a (played as) = some (played (as ++ [a])) :=
  (Option.bind_fun_some _).symm.trans (acted_played_append as [a] h h')

theorem played_reached (as : List Act) (h : (acted (step lists) as empty).isSome = true) :
    Reached (step lists) (fun _ _ => True) empty (played as) :=
  .of_acted (acted_played as h) (.of_forall (fun _ _ _ => trivial) _)

theorem played_later (as bs : List Act) (h : (acted (step lists) as empty).isSome = true)
    (h' : (acted (step lists) (as ++ bs) empty).isSome = true) :
    Reached (step lists) (fun _ _ => True) (played as) (played (as ++ bs)) :=
  .of_acted (acted_played_append as bs h h') (.of_forall (fun _ _ _ => trivial) _)

/-- `stopprintf` is called when the reader has a message in hand. -/
def inHand : List Act :=
  [.printfMaster 0, .rtapi_print_msg .info [65], .rtapi_print_msg .all [66], .queue_function,
    .queue_function, .queue_function, .stopprintf]

theorem messages_in_order_sample :
    (∃ hand : List Message, hand.length ≤ 1 ∧
      (played inHand).accepted =
        (played inHand).printed ++ hand ++ lists.contents (played inHand).rtapi_msg_queue) ∧
    (∀ f : Stream, f.text (played inHand).printed <+: f.text (played inHand).accepted) ∧
    ∀ m, lists.push m (played inHand).rtapi_msg_queue = none →
      (played inHand).printed.length + 128 ≤ (played inHand).accepted.length :=
  messages_in_order rfl (played_reached inHand (by decide +kernel))

theorem stopprintf_ends_sample : ∃ n k w', acted (step lists)
      (List.replicate n .queue_function ++ List.replicate k .stopprintf) (played inHand) =
        some w' ∧ w'.stop = .ended ∧ w'.printed = (played inHand).accepted :=
  stopprintf_ends rfl (played_reached inHand (by decide +kernel)) (by decide +kernel)
    (by decide +kernel)

/-- The reader writes both messages, and ends; `stopprintf` joins it. -/
def joined : List Act :=
  inHand ++ List.replicate 6 .queue_function ++ [.stopprintf]

/-- A message comes too late. -/
theorem messages_flushed_sample :
    (played (joined ++ [.stopprintf] ++ [.rtapi_print_msg .info [67]])).printed =
      (played joined).accepted :=
  messages_flushed rfl (played_reached joined (by decide +kernel)) (by decide +kernel)
    (step_played joined .stopprintf (by decide +kernel) (by decide +kernel)) (by decide +kernel)
    (played_later (joined ++ [.stopprintf]) [.rtapi_print_msg .info [67]] (by decide +kernel)
      (by decide +kernel))

end Messages

end RTS.Uspace

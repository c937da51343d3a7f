import RealTimeSystem.Hal.Keeping

/-!
# HAL — what the operations do outside the segment

Besides the segment and the ghosts, an operation changes what RTAPI holds, by the calls of
`Rtapi.Step`, and `hal_init` may initialise the library.  A relation that holds along the calls
(`Outer`) and along that initialisation holds along every operation, whatever the segment contains.
-/

namespace RTS.Hal

open RTS.Support

variable {σ α : Type}

/-- `T` does not look at the segment and holds along the steps of RTAPI. -/
structure Outer (R : Rtapi σ) (T : State σ → State σ → Prop) : Prop where
  inside : ∀ (s : State σ) (shm : Segment) (locks : List LockEvent) (strikes : List Strike)
    (ref_cnt : Int), T s { s with shm := shm, locks := locks, strikes := strikes, ref_cnt := ref_cnt }
  step : ∀ (s : State σ) (rt : σ), R.Step s.rt rt → T s { s with rt := rt }

namespace Outer

variable {R : Rtapi σ} {T : State σ → State σ → Prop} (h : Outer R T)
include h

/-- Any two segments will do. -/
theorem keeps : Keeps R (fun _ _ => True) T where
  segment := ⟨fun _ => trivial, fun _ _ => trivial, fun _ => trivial, fun _ _ => trivial,
    fun _ _ => trivial⟩
  put s m locks ref_cnt _ := h.inside s m locks s.strikes ref_cnt
  strike s k := h.inside s s.shm s.locks (k :: s.strikes) s.ref_cnt
  step := h.step

theorem change {f : Segment → Segment} : Along T (change f : Prog σ Unit) :=
  h.keeps.change fun _ => trivial

theorem take {f : Segment → α × Segment} : Along T (take f : Prog σ α) :=
  h.keeps.take fun _ => trivial

theorem call {f : σ → α × σ} (hf : ∀ rt, R.Step rt (f rt).2) : Along T (call f : Prog σ α) :=
  h.keeps.call hf

theorem mutex_give : Along T (rtapi_mutex_give : Prog σ Unit) := h.keeps.mutex_give

variable [Std.Refl T] [IsTrans (State σ) T]

theorem mutex_get : Along T (rtapi_mutex_get : Prog σ Unit) := h.keeps.mutex_get

theorem free_thread_struct (thread : Nat) : Along T (free_thread_struct R thread) :=
  h.keeps.free_thread_struct (fun _ => trivial) thread

theorem hal_exit (comp_id : Int) : Along T (hal_exit R comp_id) := h.keeps.hal_exit comp_id

theorem hal_app_teardown : Along T (hal_app_teardown R) :=
  .bind h.change fun _ => .bind h.mutex_get fun _ =>
    .bind (h.keeps.teardown_threads h.free_thread_struct FUEL) fun _ => h.mutex_give

theorem init_hal_data : Along T (init_hal_data R) :=
  .bind h.mutex_get fun _ => .bind h.change fun _ => .bind (h.call fun _ => .getpid) fun _ =>
    .bind h.change fun _ => .bind h.mutex_give fun _ => .pure

/-- **Every operation.** -/
theorem op (hlib : Along T (hal_init_lib R)) (op : Op) : Along T (op.run R) :=
  h.keeps.op (fun s _ => hlib s) h.free_thread_struct op fun _ _ _ _ => trivial

end Outer

/-! ### What can be read outside the segment -/

/-- What the process can read outside the segment is the same. -/
def SameReads (s s' : State σ) : Prop := s'.readable = s.readable

instance : Std.Refl (SameReads (σ := σ)) := ⟨fun _ => rfl⟩

instance : IsTrans (State σ) SameReads := ⟨fun _ _ _ h h' => h'.trans h⟩

namespace SameReads

variable {R : Rtapi σ}

theorem outer : Outer R SameReads := ⟨fun _ _ _ _ _ => rfl, fun _ _ _ => rfl⟩

theorem call {f : σ → α × σ} : Along SameReads (call f : Prog σ α) := .modifyGet fun _ => rfl

theorem hal_init_lib : Along SameReads (hal_init_lib R) :=
  .bind .get fun _ => .ite .pure <| .bind call fun _ => .bind call fun _ =>
    .bind (.modify fun _ => rfl) fun _ => .ite .pure <| .bind call fun _ =>
    .bind (.modify fun _ => rfl) fun _ => .ite (.bind call fun _ => .pure) <|
    .bind call fun _ => .ite (.bind call fun _ => .pure) <|
    .bind (.modify fun _ => rfl) fun _ => .bind (outer (R := R)).init_hal_data fun _ =>
    .ite (.bind call fun _ => .pure) .pure

/-- **Every operation** leaves it alone. -/
theorem op (op : Op) : Along SameReads (op.run R) := outer.op hal_init_lib op

end SameReads

end RTS.Hal

import RealTimeSystem.Hal.Removal

/-!
# HAL — the list of pins grows

`Enrolling x` says that wherever `x` returns, the registry has gone through events.  It is read off
the text of `x`, as every operation is such a program, and no event takes a pin off the list.
-/

namespace RTS.Hal

open RTS.Support

variable {σ α β : Type} {R : Rtapi σ} {s s' : State σ} {L L' : Lists}

theorem enter_length {γ : Type} {lt : γ → γ → Prop} [DecidableRel lt] (a : γ) (l : List γ) :
    (enter lt a l).length = l.length + 1 := by
  have h := congrArg List.length (List.takeWhile_append_dropWhile (p := fun b => lt b a) (l := l))
  simp only [enter, List.length_append, List.length_cons] at h ⊢
  omega

namespace Registry

theorem pins_apply (g : Registry) (ev : Event) : g.pins.length ≤ (g.apply ev).pins.length := by
  cases ev with
  | addPin x p =>
      show g.pins.length ≤ (enter (NameLt Pin.name) (x, p) g.pins).length
      rw [enter_length]
      exact Nat.le_succ _
  | _ => exact Nat.le_refl _

/-- No event drops a pin. -/
theorem pins_applyAll (g : Registry) (evs : List Event) :
    g.pins.length ≤ (g.applyAll evs).pins.length := by
  induction evs generalizing g with
  | nil => exact Nat.le_refl _
  | cons ev evs ih => exact (pins_apply g ev).trans (ih (g.apply ev))

end Registry

theorem Moved.pins {evs : List Event} (h : Moved s L evs s' L') :
    (view s.shm L).pins.length ≤ (view s'.shm L').pins.length := by
  rw [h.events]
  exact Registry.pins_applyAll _ _

/-- Where `x` returns, the registry has gone through events. -/
def Enrolling (x : Prog σ α) : Prop :=
  ∀ s L, Inv s L → Wp x s (fun _ s' => ∃ evs L', Moved s L evs s' L') fun _ _ => True

namespace Enrolling

variable {x : Prog σ α} {f : α → Prog σ β}

theorem of_returns (h : ∀ s L, Inv s L → Returns x s fun _ s' => ∃ evs L', Moved s L evs s' L') :
    Enrolling x := fun s L hi =>
  (h s L hi).to_wp

theorem of_refines {x : Prog σ Int} {spec : State σ → Lists → Int × List Event}
    (h : ∀ s L, Inv s L → Returns x s (Refines s L (spec s L))) : Enrolling x :=
  .of_returns fun s L hi => (h s L hi).mono fun _ _ ⟨_, L', hm, _⟩ => ⟨_, L', hm⟩

theorem pure {a : α} : Enrolling (Pure.pure a : Prog σ α) := fun _ L h => ⟨[], L, .refl h⟩

theorem bind (hx : Enrolling x) (hf : ∀ a, Enrolling (f a)) : Enrolling (x >>= f) := fun s L h => by
  rw [wp_bind]
  refine (hx s L h).mono (fun a s₁ ⟨evs, L₁, h₁⟩ => ?_) fun _ _ => id
  refine (hf a s₁ L₁ h₁.inv).mono (fun b s₂ ⟨evs', L₂, h₂⟩ => ?_) fun _ _ => id
  exact ⟨evs ++ evs', L₂, h₁.trans h₂⟩

theorem ite {c : Prop} [Decidable c] {y : Prog σ α} (hx : Enrolling x) (hy : Enrolling y) :
    Enrolling (if c then x else y) := fun s L h => .ite (fun _ => hx s L h) fun _ => hy s L h

theorem get : Enrolling (MonadState.get : Prog σ (State σ)) := fun _ L h => ⟨[], L, .refl h⟩

theorem call (g : σ → α × σ) : Enrolling (call g) := fun s L h =>
  ⟨[], L, (Moved.refl h).outside _ s.ref_cnt s.strikes⟩

/-- A store of a value. -/
theorem store (p : Addr) (v : Int) : Enrolling (store p v : Prog σ Unit) := fun s L h => by
  unfold Hal.store
  refine .ite (fun _ => trivial) fun _ => ⟨[], L, ?_⟩
  have hg : Good (s.shm.setData p v) L := ⟨h.good.shape, h.good.sound, h.good.plain⟩
  exact ⟨{ h with good := hg }, rfl, rfl, rfl, rfl, rfl⟩

theorem storeThrough (c : Nat) (v : Int) : Enrolling (storeThrough c v : Prog σ Unit) :=
  .bind (fun _ L h => ⟨[], L, .refl h⟩) fun p => .store p v

/-! The operations. -/

theorem hal_pin_newf (type : HalType) (data_ptr_addr : Addr) (comp_id : Int) (full : CStr) :
    Enrolling (hal_pin_newf type data_ptr_addr comp_id full : Prog σ Int) :=
  fun _ _ h => (hal_pin_newf_spec h type data_ptr_addr comp_id full).mono
    (fun _ _ ⟨⟨_, L', hm, _⟩, _⟩ => ⟨_, L', hm⟩) fun _ _ _ => trivial

theorem hal_param_s32_new (name : CStr) (dir : ParamDir) (type : HalType) (data_addr : Addr)
    (comp_id : Int) : Enrolling (hal_param_s32_new name dir type data_addr comp_id : Prog σ Int) :=
  .of_refines fun _ _ h => hal_param_new_refines h name type dir data_addr comp_id

theorem hal_export_funct (name : CStr) (funct arg : Addr) (uses_fp reentrant comp_id : Int) :
    Enrolling (hal_export_funct name funct arg uses_fp reentrant comp_id : Prog σ Int) :=
  .of_returns fun _ _ h => (hal_export_funct_enrolled h name funct arg uses_fp reentrant
    comp_id).mono fun _ _ ⟨evs, L', he⟩ => ⟨evs, L', he.moved⟩

theorem hal_create_thread (name : CStr) (period_nsec : Nat) (uses_fp priority : Int) :
    Enrolling (hal_create_thread R name period_nsec uses_fp priority) :=
  .of_returns fun s L h => (hal_create_thread_spec R name period_nsec uses_fp priority h).mono
    fun _ _ ⟨L', hc⟩ => by
      cases hc with
      | refused _ => exact ⟨[], L, .refl h⟩
      | undone _ _ hm _ => exact ⟨[], L', hm⟩
      | done _ _ _ hm _ ho =>
          obtain ⟨evs, hm'⟩ := ho.moved
          exact ⟨_, L', hm.trans hm'⟩

theorem hal_add_funct_to_thread (funct_name thread_name : Option CStr) (position : Int) :
    Enrolling (hal_add_funct_to_thread funct_name thread_name position : Prog σ Int) :=
  fun _ _ h => (hal_add_funct_spec h funct_name thread_name position rfl).mono
    (fun _ _ ⟨_, _, L', hm, _⟩ => ⟨_, L', hm⟩) fun _ _ _ => trivial

theorem hal_ready (comp_id : Int) : Enrolling (hal_ready comp_id : Prog σ Int) :=
  .of_refines fun _ _ h => hal_ready_refines h comp_id

theorem hal_exit (comp_id : Int) : Enrolling (hal_exit R comp_id) :=
  .of_returns fun _ _ h => (hal_exit_spec R h comp_id).mono fun _ _ ⟨_, ⟨L', hm⟩, _⟩ => ⟨_, L', hm⟩

end Enrolling

/-- More pins are on the list than before. -/
def Pinned (s : State σ) (L : Lists) (s' : State σ) : Prop :=
  ∃ L', Inv s' L' ∧ (view s.shm L).pins.length < (view s'.shm L').pins.length

/-- **A pin that came stays.** -/
theorem Enrolling.pinned {x : Prog σ α} (hx : Enrolling x) {s₁ : State σ} {L₁ : Lists}
    (h₁ : Inv s₁ L₁) (hlt : (view s.shm L).pins.length < (view s₁.shm L₁).pins.length) :
    Wp x s₁ (fun _ s' => Pinned s L s') fun _ _ => True :=
  (hx s₁ L₁ h₁).mono (fun _ _ ⟨_, L', hm⟩ => ⟨L', hm.inv, hlt.trans_le hm.pins⟩) fun _ _ => id

end RTS.Hal

import RealTimeSystem.Hal.Threads

/-!
# HAL — who writes a pointer cell

A pointer cell is written by `hal_pin_new`, which makes it point to the dummy signal of the pin, and
by `free_funct_struct`, which clears the `runtime` of the function.  `Uncelled` is what all other
steps keep: every cell.
-/

namespace RTS.Hal

open RTS.Support

variable {σ : Type} {R : Rtapi σ}

/-! ### Functions of the segment -/

/-- The cells and the owners of the functions are as before. -/
def SameOwners (m m' : Segment) : Prop :=
  m'.cell = m.cell ∧ ∀ y, (m'.funct y).owner_ptr = (m.funct y).owner_ptr

namespace SameOwners

variable {m m' m'' : Segment}

theorem rfl' (m : Segment) : SameOwners m m := ⟨rfl, fun _ => rfl⟩

theorem trans (h : SameOwners m m') (h' : SameOwners m' m'') : SameOwners m m'' :=
  ⟨h'.1.trans h.1, fun y => (h'.2 y).trans (h.2 y)⟩

/-- An entry that is freed gives back one use of its function, whose owner stays. -/
theorem free_funct_entry_struct (m : Segment) (e : Nat) :
    SameOwners m (m.free_funct_entry_struct e) := by
  simp only [Segment.free_funct_entry_struct]
  split_ifs
  · refine ⟨rfl, fun y => ?_⟩
    by_cases hy : y = (m.entry e).funct_ptr
    · subst hy
      simp [Segment.onArena, Segment.setEntry, Segment.setFunct]
    · simp [Segment.onArena, Segment.setEntry, Segment.setFunct, hy]
  · exact ⟨rfl, fun _ => rfl⟩

/-- The walk over a ring frees entries only: induction on its steps. -/
theorem free_entries {root n cur : Nat} {test : Entry → Bool}
    (h : Segment.free_entries root test n m cur = some m') : SameOwners m m' := by
  induction n generalizing m cur with
  | zero => cases h
  | succ n ih =>
      unfold Segment.free_entries at h
      split_ifs at h
      · cases h
        exact rfl' _
      · exact (free_funct_entry_struct (m.onArena fun a => a.list_remove_entry cur) cur).trans (ih h)
      · exact ih h

/-- And so does the walk over the threads. -/
theorem free_users {n t : Nat} {test : Entry → Bool}
    (h : Segment.free_users test n m t = some m') : SameOwners m m' := by
  induction n generalizing m t with
  | zero => cases h
  | succ n ih =>
      unfold Segment.free_users at h
      split_ifs at h
      · cases h
        exact rfl' _
      · obtain ⟨m₁, h₁, h₂⟩ := Option.bind_eq_some_iff.mp h
        exact (free_entries h₁).trans (ih h₂)

/-- Clearing a thread frees the entries of its ring. -/
theorem clear_thread {x : Nat} (h : m.clear_thread x = some m') : m'.cell = m.cell := by
  unfold Segment.clear_thread at h
  obtain ⟨m₁, h₁, rfl⟩ := Option.map_eq_some_iff.mp h
  exact (free_entries h₁).1

end SameOwners

/-- Freeing a function clears its `runtime` and its owner. -/
theorem free_funct_struct_cells {m m' : Segment} {x : Nat} (h : m.free_funct_struct x = some m') :
    m'.cell = Function.update m.cell (x + FUNCT_RUNTIME) 0 ∧
      ∀ y, (m'.funct y).owner_ptr = if y = x then 0 else (m.funct y).owner_ptr := by
  unfold Segment.free_funct_struct at h
  obtain ⟨m₁, h₁, rfl⟩ := Option.map_eq_some_iff.mp h
  have hsame : SameOwners m m₁ := by
    split_ifs at h₁
    · exact .free_users h₁
    · cases h₁
      exact .rfl' _
  refine ⟨?_, fun y => ?_⟩
  · rw [← hsame.1]
    rfl
  · by_cases hy : y = x
    · subst hy
      simp [Segment.pushFree, Segment.onArena, Segment.setCell, Segment.setFunct]
    · simp [Segment.pushFree, Segment.onArena, Segment.setCell, Segment.setFunct, hy, hsame.2]

theorem free_param_struct_cells (m : Segment) (x : Nat) : (m.free_param_struct x).cell = m.cell := by
  unfold Segment.free_param_struct
  split_ifs <;> rfl

theorem free_pin_struct_cells (m : Segment) (base : Addr) (x : Nat) :
    (m.free_pin_struct base x).cell = m.cell := by
  unfold Segment.free_pin_struct
  split_ifs <;> rfl

/-- Putting a structure into its list moves links only. -/
theorem insert_sorted_cells {m m' : Segment} {k : Kind} {name : Nat → CStr} {x : Nat} {b : Bool}
    (h : m.insert_sorted k name x = some (b, m')) : m'.cell = m.cell := by
  unfold Segment.insert_sorted at h
  obtain ⟨prev, -, h⟩ := Option.map_eq_some_iff.mp h
  simp only at h
  split_ifs at h <;> cases h <;> rfl

/-- Only cells of functions of `x` changed, and no function came to `x`. -/
structure Cleans (x : Nat) (m m' : Segment) : Prop where
  cells : ∀ c, m'.cell c = m.cell c ∨ ∃ f, (m.funct f).owner_ptr = x ∧ c = f + FUNCT_RUNTIME
  owners : ∀ f, (m'.funct f).owner_ptr = x → (m.funct f).owner_ptr = x

namespace Cleans

variable {x : Nat} {m m' m'' : Segment}

/-- A step that touches neither cells nor functions. -/
theorem of_eq (hc : m'.cell = m.cell) (hf : m'.funct = m.funct) : Cleans x m m' :=
  ⟨fun c => .inl (congrFun hc c), fun f h => by rwa [hf] at h⟩

/-- A function of `x` in between was one before, so its cell is allowed. -/
theorem trans (h : Cleans x m m') (h' : Cleans x m' m'') : Cleans x m m'' where
  cells c := by
    rcases h'.cells c with e | ⟨f, hf, rfl⟩
    · rw [e]
      exact h.cells c
    · exact .inr ⟨f, h.owners f hf, rfl⟩
  owners f hf := h.owners f (h'.owners f hf)

/-- The one step that clears a cell: that of the run time of a function of `x`. -/
theorem free_funct_struct {y : Nat} (hx : x ≠ 0) (hy : (m.funct y).owner_ptr = x)
    (h : m.free_funct_struct y = some m') : Cleans x m m' := by
  obtain ⟨hcell, howner⟩ := free_funct_struct_cells h
  refine ⟨fun c => ?_, fun f hf => ?_⟩
  · by_cases hc : c = y + FUNCT_RUNTIME
    · exact .inr ⟨y, hy, hc⟩
    · exact .inl (by rw [hcell, Function.update_of_ne hc])
  · rw [howner] at hf
    split_ifs at hf with hfy
    · exact absurd hf.symm hx
    · exact hf

/-- The loop of the clean-up, for whatever it frees. -/
theorem sweep {k : Kind} {owned : Segment → Nat → Bool} {free : Segment → Nat → Option Segment}
    (hfree : ∀ {m m' : Segment} {y prev}, owned m y → free (m.unlink k prev y) y = some m' →
      Cleans x m m') {n : Nat} {prev : Link}
    (h : Segment.sweep k owned free n m prev = some m') : Cleans x m m' := by
  induction n generalizing m prev with
  | zero => cases h
  | succ n ih =>
      simp only [Segment.sweep] at h
      split_ifs at h with h0 howned
      · cases h
        exact .of_eq rfl rfl
      · obtain ⟨m₁, h₁, h₂⟩ := Option.bind_eq_some_iff.mp h
        exact (hfree howned h₁).trans (ih h₂)
      · exact ih h

/-- The end of a component: its functions, and then its parameters. -/
theorem free_comp_struct (hx : x ≠ 0) (h : m.free_comp_struct x = some m') : Cleans x m m' := by
  unfold Segment.free_comp_struct at h
  obtain ⟨m₁, h₁, h⟩ := Option.bind_eq_some_iff.mp h
  obtain ⟨m₂, h₂, rfl⟩ := Option.map_eq_some_iff.mp h
  have hfuncts : Cleans x m m₁ := sweep (fun {m m' y prev} howned h => by
    have hunlink : Cleans x m (m.unlink .funct prev y) := .of_eq rfl rfl
    exact hunlink.trans (free_funct_struct hx (of_decide_eq_true howned) h)) h₁
  have hparams : Cleans x m₁ m₂ := sweep (fun {m m' y prev} _ h => by
    cases h
    refine .of_eq (free_param_struct_cells _ _) ?_
    unfold Segment.free_param_struct
    split_ifs <;> rfl) h₂
  exact hfuncts.trans (hparams.trans (.of_eq rfl rfl))

end Cleans

/-! ### Programs -/

/-- Every pointer cell is as before. -/
def Uncelled (s s' : State σ) : Prop := s'.shm.cell = s.shm.cell

instance : Std.Refl (Uncelled (σ := σ)) where
  refl _ := rfl

instance : IsTrans (State σ) Uncelled where
  trans _ _ _ h h' := Eq.trans h' h

namespace Uncelled

variable {α : Type}

theorem look {f : Segment → α} : Along Uncelled (look f : Prog σ α) := .bind .get fun _ => .pure

theorem walk {f : Segment → Option α} : Along Uncelled (walk f : Prog σ α) :=
  .bind .get fun s => by
    cases f s.shm with
    | none => exact .throw
    | some a => exact .pure

theorem change {f : Segment → Segment} (h : ∀ m, (f m).cell = m.cell) :
    Along Uncelled (change f : Prog σ Unit) := .modify fun s => h s.shm

theorem take {f : Segment → α × Segment} (h : ∀ m, (f m).2.cell = m.cell) :
    Along Uncelled (take f : Prog σ α) := .modifyGet fun s => h s.shm

/-- A walk that changes the segment: it may also not end, and then nothing is stored. -/
theorem walkTo {f : Segment → Option (α × Segment)}
    (h : ∀ m a m', f m = some (a, m') → m'.cell = m.cell) :
    Along Uncelled (walkTo f : Prog σ α) := by
  intro s
  unfold Hal.walkTo
  rw [wp_bind, wp_get]
  rcases hf : f s.shm with _ | ⟨a, m'⟩
  · exact Std.Refl.refl (r := Uncelled) s
  · exact h s.shm a m' hf

theorem call {f : σ → α × σ} : Along Uncelled (call f : Prog σ α) := .modifyGet fun _ => rfl

theorem rtapi_mutex_get : Along Uncelled (rtapi_mutex_get : Prog σ Unit) :=
  .bind .get fun _ => .ite .throw <| .bind (.modify fun _ => rfl) fun _ =>
    .ite .throw (change fun _ => rfl)

theorem rtapi_mutex_give : Along Uncelled (rtapi_mutex_give : Prog σ Unit) := .modify fun _ => rfl

/-- The component is written into its own structure. -/
theorem hal_init_comp (name : CStr) : Along Uncelled (hal_init_comp R name) :=
  .bind call fun _ => .ite .pure <| .bind rtapi_mutex_get fun _ => .bind walk fun _ =>
    .ite (.bind rtapi_mutex_give fun _ => .bind call fun _ => .pure) <|
    .bind (take fun m => by
      simp only [Segment.halpr_alloc_comp_struct]
      split_ifs <;> rfl) fun _ =>
    .ite (.bind rtapi_mutex_give fun _ => .bind call fun _ => .pure) <|
    .bind .get fun _ => .bind (change fun _ => rfl) fun _ => .bind (change fun _ => rfl) fun _ =>
    .bind rtapi_mutex_give fun _ => .bind (change fun _ => rfl) fun _ =>
    .bind (.modify fun _ => rfl) fun _ => .pure

theorem init_hal_data : Along Uncelled (init_hal_data R) :=
  .bind rtapi_mutex_get fun _ => .bind (change fun _ => rfl) fun _ => .bind call fun _ =>
    .bind (change fun _ => rfl) fun _ => .bind rtapi_mutex_give fun _ => .pure

theorem hal_init_lib : Along Uncelled (hal_init_lib R) :=
  .bind .get fun _ => .ite .pure <| .bind call fun _ => .bind call fun _ =>
    .bind (.modify fun _ => rfl) fun _ => .ite .pure <| .bind call fun _ =>
    .bind (.modify fun _ => rfl) fun _ => .ite (.bind call fun _ => .pure) <|
    .bind call fun _ => .ite (.bind call fun _ => .pure) <|
    .bind (.modify fun _ => rfl) fun _ => .bind init_hal_data fun _ =>
    .ite (.bind call fun _ => .pure) .pure

/-- The attachment comes first where HAL is not attached. -/
theorem hal_init (name : Option CStr) : Along Uncelled (hal_init R name) := by
  rcases name with _ | name
  · exact .pure
  · exact .ite .pure <| .bind .get fun _ =>
      .ite (.bind hal_init_lib fun _ => .ite .pure (hal_init_comp name)) (hal_init_comp name)

theorem hal_ready (comp_id : Int) : Along Uncelled (hal_ready comp_id : Prog σ Int) :=
  .bind rtapi_mutex_get fun _ => .bind walk fun _ =>
    .ite (.bind rtapi_mutex_give fun _ => .pure) <| .bind look fun _ =>
    .ite (.bind rtapi_mutex_give fun _ => .pure) <| .bind (change fun _ => rfl) fun _ =>
    .bind rtapi_mutex_give fun _ => .pure

/-- The structure goes into its list, or back to the free ones. -/
theorem insert_new {k : Kind} {names : Segment → Nat → CStr}
    {free : Segment → Nat → Option Segment} {new : Nat}
    (hfree : ∀ {m m' x}, free m x = some m' → m'.cell = m.cell) :
    Along Uncelled (insert_new k names free new : Prog σ Bool) :=
  .bind (walkTo fun _ _ _ h => insert_sorted_cells h) fun _ =>
    .ite (.bind rtapi_mutex_give fun _ => .pure) <| .bind (walkTo fun _ _ _ h => by
      obtain ⟨m₁, h₁, h⟩ := Option.map_eq_some_iff.mp h
      cases h
      exact hfree h₁) fun _ => .bind rtapi_mutex_give fun _ => .pure

/-- A parameter has no pointer cell: its value lies where the caller says. -/
theorem hal_param_new (name : CStr) (type : HalType) (dir : ParamDir) (data_addr : Addr)
    (comp_id : Int) : Along Uncelled (hal_param_new name type dir data_addr comp_id : Prog σ Int) :=
  .bind .get fun _ => .ite .pure <| .ite .pure <| .ite .pure <| .ite .pure <| .ite .pure <|
    .bind .get fun _ => .bind rtapi_mutex_get fun _ => .bind walk fun _ =>
    .ite (.bind rtapi_mutex_give fun _ => .pure) <|
    .ite (.bind rtapi_mutex_give fun _ => .pure) <| .bind look fun _ =>
    .ite (.bind rtapi_mutex_give fun _ => .pure) <| .bind (take fun m => by
      simp only [Segment.alloc_param_struct]
      split_ifs <;> rfl) fun _ =>
    .ite (.bind rtapi_mutex_give fun _ => .pure) <| .bind (change fun _ => rfl) fun _ =>
    .bind (insert_new fun h => by
      cases h
      exact free_param_struct_cells _ _) fun _ => .ite .pure .pure

/-- A thread is struck and freed; its two statistics are not pointer cells. -/
theorem free_thread_struct (thread : Nat) : Along Uncelled (free_thread_struct R thread) :=
  .bind (change fun _ => rfl) fun _ => .bind look fun _ =>
    .bind (.bind (.modify fun _ => rfl) fun _ => call) fun _ =>
    .bind (.bind (.modify fun _ => rfl) fun _ => call) fun _ => walkTo fun m _ m' h => by
      obtain ⟨m₁, h₁, h⟩ := Option.map_eq_some_iff.mp h
      cases h
      exact SameOwners.clear_thread h₁

theorem create_thread_insert (new period_nsec : Nat) (uses_fp priority : Int) :
    Along Uncelled (create_thread_insert R new period_nsec uses_fp priority) :=
  .bind .get fun _ => .bind (change fun _ => rfl) fun _ => .bind call fun _ =>
    .ite (.bind (free_thread_struct _) fun _ => .bind rtapi_mutex_give fun _ => .pure) <|
    .bind (change fun _ => rfl) fun _ => .bind call fun _ =>
    .ite (.bind (.bind (.modify fun _ => rfl) fun _ => call) fun _ =>
      .bind (free_thread_struct _) fun _ => .bind rtapi_mutex_give fun _ => .pure) <|
    .bind (change fun _ => rfl) fun _ => .bind rtapi_mutex_give fun _ => .pure

/-- The thread and its task, up to its parameter and its pin. -/
theorem create_thread_task (name : CStr) (period_nsec : Nat) (uses_fp priority : Int) :
    Along Uncelled (create_thread_task R name period_nsec uses_fp priority) :=
  .bind rtapi_mutex_get fun _ => .bind walk fun _ =>
    .ite (.bind rtapi_mutex_give fun _ => .pure) <| .bind (take fun m => by
      simp only [Segment.alloc_thread_struct]
      split_ifs <;> rfl) fun _ =>
    .ite (.bind rtapi_mutex_give fun _ => .pure) <| .bind (change fun _ => rfl) fun _ =>
    .bind look fun _ =>
    .ite (.bind (.bind call fun _ => .ite (.bind call fun _ => .ite .pure .pure) .pure) fun _ =>
      .ite (.bind (create_thread_insert _ _ _ _) fun _ => .pure)
        (.bind (free_thread_struct _) fun _ => .bind rtapi_mutex_give fun _ => .pure))
      (.bind (create_thread_insert _ _ _ _) fun _ => .pure)

end Uncelled

end RTS.Hal

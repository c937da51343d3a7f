import RealTimeSystem.Hal.Effects
import RealTimeSystem.Hal.Lockstep
import RealTimeSystem.System.Boot

/-!
# System — HAL on a segment that was used before

Two copies of HAL run in step: one on a zero-filled segment, one on a segment with other contents.
An operation that is given the same arguments returns the same on both, and the two states stay
`Paired`.  What the second segment contains beside what is carved and listed does not matter to any
operation; a `Bond` says where the two may differ, and it only gets finer.

The step is `Paired.reply`, one case for each operation (`Hal/Lockstep.lean`); `System/Restarting.lean`
has the runs.
-/

namespace RTS.Hal

open RTS.Support RTS.Uspace

section
variable {σ : Type} (R : Rtapi σ)

/-! ### Results and names -/

/-- What an operation returns. -/
inductive Reply where
  | code (r : Int)
  | offset (r : Option Int)
  | name (r : Option CStr)
  | stats (r : Int × Option HalStats)
  | lock (r : UInt8)
  | state (r : HalState)
  | done
  deriving DecidableEq

/-- The operation, with its result. -/
def Op.reply : Op → Prog σ Reply
  | .hal_init name => .code <$> Hal.hal_init R name
  | .hal_exit comp_id => .code <$> Hal.hal_exit R comp_id
  | .hal_malloc size => .offset <$> Hal.hal_malloc size
  | .hal_set_constructor comp_id make => .code <$> Hal.hal_set_constructor comp_id make
  | .hal_ready comp_id => .code <$> Hal.hal_ready comp_id
  | .hal_unready comp_id => .code <$> Hal.hal_unready comp_id
  | .hal_set_unready comp_id => .code <$> Hal.hal_set_unready comp_id
  | .hal_comp_name comp_id => .name <$> Hal.hal_comp_name comp_id
  | .hal_export_funct name funct arg uses_fp reentrant comp_id =>
      .code <$> Hal.hal_export_funct name funct arg uses_fp reentrant comp_id
  | .hal_create_thread name period_nsec uses_fp priority =>
      .code <$> Hal.hal_create_thread R name period_nsec uses_fp priority
  | .hal_thread_delete name => .code <$> Hal.hal_thread_delete R name
  | .hal_add_funct_to_thread funct_name thread_name position =>
      .code <$> Hal.hal_add_funct_to_thread funct_name thread_name position
  | .hal_del_funct_from_thread funct_name thread_name =>
      .code <$> Hal.hal_del_funct_from_thread funct_name thread_name
  | .hal_param_new name type dir data_addr comp_id =>
      .code <$> Hal.hal_param_new name type dir data_addr comp_id
  | .hal_pin_new name type data_ptr_addr comp_id =>
      .code <$> Hal.hal_pin_new name type data_ptr_addr comp_id
  | .hal_get_stats stats => .stats <$> Hal.hal_get_stats stats
  | .hal_set_lock lock_type => .code <$> Hal.hal_set_lock lock_type
  | .hal_get_lock => .lock <$> Hal.hal_get_lock
  | .hal_start_threads => .code <$> Hal.hal_start_threads
  | .hal_stop_threads => .code <$> Hal.hal_stop_threads
  | .hal_get_state => .state <$> Hal.hal_get_state
  | .teardown => (fun _ => .done) <$> Hal.hal_app_teardown R

/-- An operation is its reply with the answer forgotten. -/
theorem Op.run_reply (op : Op) : op.run R = (do let _ ← op.reply R : Prog σ Unit) := by
  cases op with
  | teardown =>
      simp only [Op.run, Op.reply, bind_map_left]
      exact (bind_pure _).symm
  | _ => simp only [Op.run, Op.reply, bind_map_left]

theorem Op.run_of_reply {R : Rtapi σ} {op : Op} {r : Reply} {s s' : State σ}
    (h : op.reply R s = .ok r s') : op.run R s = .ok () s' := by
  rw [op.run_reply]
  show EStateM.bind _ _ s = _
  unfold EStateM.bind
  rw [h]
  rfl

/-- The operations one after the other, with their results. -/
def replies : List Op → Prog σ (List Reply)
  | [] => return []
  | op :: ops => do
      let r ← op.reply R
      let rs ← replies ops
      return r :: rs

/-- The name of the structure at `x`. -/
def Segment.nameAt (m : Segment) : Kind → Nat → CStr
  | .comp, x => (m.comp x).name
  | .pin, x => (m.pin x).name
  | .param, x => (m.param x).name
  | .funct, x => (m.funct x).name
  | .thread, x => (m.thread x).name
  | .entry, _ => []
  | .oldname, x => m.oldname x

/-- The names on a list, in its order. -/
def Segment.Names (m : Segment) (k : Kind) (names : List CStr) : Prop :=
  ∃ xs, Chain (m.arena.pool k).next_ptr (m.arena.pool k).list_ptr xs ∧ xs.map (m.nameAt k) = names

/-- The same names are registered. -/
def SameNames (m m' : Segment) : Prop :=
  ∀ k, k ≠ .entry → k ≠ .oldname → ∀ names, m'.Names k names ↔ m.Names k names

/-! ### Threads that are listed -/

variable {R} {s s' : State σ} {L L' : Lists} {op : Op}

theorem view_offs {m : Segment} {L : Lists} : (view m L).threads.map Slot.off = L.act .thread := by
  simp [view, Function.comp_def]

theorem offs_heads {g g' : Registry} (h : g'.heads = g.heads) :
    g'.threads.map Slot.off = g.threads.map Slot.off := by
  have := congrArg (List.map Prod.fst) h
  simpa [Registry.heads, Function.comp_def] using this

variable (R) in
/-- The thread `new` is made and listed by the operation. -/
def Op.Creates (s : State σ) (new : Nat) : Op → Prop
  | .hal_create_thread name period_nsec uses_fp priority => Admits s name period_nsec ∧
      ∃ s₁, create_thread_task R name period_nsec uses_fp priority s = .ok (.ok new) s₁
  | _ => False

/-- A thread that is listed was listed before, or it was just created. -/
theorem Effect.listed (he : Effect R s L op s' L') {x : Nat} (hx : x ∈ L'.act .thread) :
    x ∈ L.act .thread ∨ op.Creates R s x := by
  have hsame : (view s'.shm L').heads = (view s.shm L).heads → x ∈ L.act .thread := fun e => by
    rwa [← view_offs (m := s.shm), ← offs_heads e, view_offs]
  cases he with
  | calm hc => exact .inl (hsame hc.heads)
  | init hm _ _ =>
      refine .inl (hsame ?_)
      rw [hm.events]
      exact congrArg (List.map _) Registry.init_threads
  | exit hm _ _ =>
      refine .inl (hsame ?_)
      rw [hm.events]
      exact heads_exit ..
  | create hc =>
      cases hc with
      | refused _ => exact .inl hx
      | undone _ _ hm _ => exact .inl (hsame (congrArg Registry.heads hm.events))
      | @done th s₁ _ L₁ _ hadm hmade hrun hm ht ho =>
          have hoffs : L'.act .thread = (s.shm.arena.alloc .thread).1 :: L.act .thread := by
            have hset : ∀ (g : Registry) (y : Nat) (th : Thread),
                (g.apply (.setThread y th)).threads.map Slot.off = g.threads.map Slot.off := by
              intro g y th
              simp only [Registry.apply, List.map_map]
              refine List.map_congr_left fun u _ => ?_
              simp only [Function.comp]
              split <;> rfl
            rw [← view_offs (m := s'.shm), ho.threads, hset, hm.events, ← view_offs (m := s.shm)]
            rfl
          rw [hoffs] at hx
          rcases List.mem_cons.mp hx with rfl | hx
          · exact .inr ⟨hadm, s₁, hrun⟩
          · exact .inl hx

/-- A listed thread was listed before, or is new. -/
theorem Op.listed_threads (h : Inv s L) (hsane : op.Sane) (hrun : op.run R s = .ok () s') {x : Nat}
    (hx : s'.shm.Listed .thread x) : s.shm.Listed .thread x ∨ op.Creates R s x := by
  by_cases hd : op.Deletes
  · left
    cases op with
    | hal_thread_delete name =>
        obtain ⟨r, hok⟩ := ok_of_ignored hrun
        obtain ⟨spec, hspec, -, L', hm⟩ := (hal_thread_delete_spec R h name).of_ok hok
        rw [hm.inv.good.shape.listed, ← view_offs (m := s'.shm), hm.events] at hx
        rw [h.good.shape.listed, ← view_offs (m := s.shm)]
        unfold Registry.delete at hspec
        split_ifs at hspec
        · cases hspec
          exact hx
        · cases hspec
          exact hx
        split at hspec
        · cases hspec
          exact hx
        · split_ifs at hspec
          cases hspec
          exact (List.filter_sublist.map _).subset hx
    | teardown =>
        obtain ⟨L', hinv, hnil, -⟩ := (hal_app_teardown_spec R h).of_ok hrun
        have := hinv.good.shape.listed.mp hx
        rw [hnil] at this
        exact absurd this List.not_mem_nil
    | _ => exact hd.elim
  · obtain ⟨L', he⟩ := (op.effect h hsane hd).of_ok hrun
    rw [(he.inv h).good.shape.listed] at hx
    exact (he.listed hx).imp_left h.good.shape.listed.mpr

/-! ### Two runs -/

/-- The two processes are the same to HAL, the first is in order, and the components of the listed
threads are the same. -/
structure Paired (b : Bond) (s s' : State σ) : Prop where
  abreast : Abreast b s s'
  inv : ∃ L, Inv s L
  comps : ∀ x, s.shm.Listed .thread x → b.cid' x = b.cid x

namespace Paired

variable {b : Bond}

/-- The thread that `hal_thread_delete` finds has the same component in both. -/
theorem found (h : Paired b s s') {name : CStr} {prev : Link}
    (hseek : (s.shm.arena.pool .thread).seek (fun x => strcmp (s.shm.thread x).name name = 0) FUEL
      .root = some prev) (h₀ : (s.shm.arena.pool .thread).deref prev ≠ 0) :
    b.cid' ((s.shm.arena.pool .thread).deref prev) =
      b.cid ((s.shm.arena.pool .thread).deref prev) := by
  obtain ⟨L, hinv⟩ := h.inv
  have hshape := hinv.good.shape
  refine h.comps _ (hshape.listed.mpr ?_)
  rcases seek_cases hshape (k := .thread) (by decide)
      (fun x => strcmp (s.shm.thread x).name name = 0) with
    ⟨prev', hs, hderef, -⟩ | ⟨xs, x, ys, hl, -, -, -, hs, hderef⟩
  · cases hseek.symm.trans hs
    exact absurd hderef h₀
  · cases hseek.symm.trans hs
    rw [hderef, hl]
    exact List.mem_append_right _ List.mem_cons_self

/-- **One operation** returns the same in both, or stops both. -/
theorem reply_abreast (h : Paired b s s') (op : Op) (hsane : op.Sane) :
    Both (op.reply R) (op.reply R) s s' fun _ t t' =>
      ∃ b', Abreast b' t t' ∧ b.Finer b' ∧ ∀ x, op.Creates R s x → b'.cid' x = b'.cid x := by
  have ha := h.abreast
  -- most operations leave the components of the threads
  have keep : ∀ {t t' : State σ} {op : Op}, (∀ x, ¬ op.Creates R s x) → Abreast b t t' →
      ∃ b', Abreast b' t t' ∧ b.Finer b' ∧ ∀ x, op.Creates R s x → b'.cid' x = b'.cid x :=
    fun hno ht => ⟨b, ht, .refl b, fun x hx => absurd hx (hno x)⟩
  cases op with
  | hal_init name => exact .map ((ha.hal_init name).mono fun _ _ _ ht => keep (fun _ => id) ht.1)
  | hal_exit comp_id =>
      exact .map ((ha.hal_exit comp_id).mono fun _ _ _ ht => keep (fun _ => id) ht.1)
  | hal_malloc size =>
      exact .map ((ha.hal_malloc hsane).mono fun _ _ _ ht => keep (fun _ => id) ht)
  | hal_set_constructor comp_id make =>
      exact .map ((ha.hal_set_constructor comp_id make).mono fun _ _ _ ht => keep (fun _ => id) ht)
  | hal_ready comp_id =>
      exact .map ((ha.hal_ready comp_id).mono fun _ _ _ ht => keep (fun _ => id) ht)
  | hal_unready comp_id =>
      exact .map ((ha.hal_unready comp_id).mono fun _ _ _ ht => keep (fun _ => id) ht)
  | hal_set_unready comp_id =>
      exact .map ((ha.hal_set_unready comp_id).mono fun _ _ _ ht => keep (fun _ => id) ht)
  | hal_comp_name comp_id =>
      exact .map ((ha.hal_comp_name comp_id).mono fun _ _ _ ht => keep (fun _ => id) ht)
  | hal_export_funct name funct arg uses_fp reentrant comp_id =>
      exact .map ((ha.hal_export_funct name funct arg uses_fp reentrant comp_id).mono
        fun _ _ _ ht => keep (fun _ => id) ht)
  | hal_create_thread name period_nsec uses_fp priority =>
      refine .map ((ha.hal_create_thread name period_nsec uses_fp priority).mono fun _ t t' ht => ?_)
      obtain ⟨b', ht, hb, hnew⟩ := ht
      refine ⟨b', ht, hb, fun x hx => ?_⟩
      obtain ⟨hadm, s₁, hmade⟩ := hx
      exact hnew hadm x s₁ hmade
  | hal_thread_delete name =>
      refine .map ((ha.hal_thread_delete name fun prev => h.found).mono fun _ t t' ht => ?_)
      obtain ⟨b', ht, hb⟩ := ht
      exact ⟨b', ht, hb, fun x hx => False.elim hx⟩
  | hal_add_funct_to_thread funct_name thread_name position =>
      exact .map ((ha.hal_add_funct_to_thread funct_name thread_name position).mono
        fun _ _ _ ht => keep (fun _ => id) ht)
  | hal_del_funct_from_thread funct_name thread_name =>
      exact .map ((ha.hal_del_funct_from_thread funct_name thread_name).mono
        fun _ _ _ ht => keep (fun _ => id) ht)
  | hal_param_new name type dir data_addr comp_id =>
      exact .map ((ha.hal_param_new name type dir data_addr comp_id).mono
        fun _ _ _ ht => keep (fun _ => id) ht.1)
  | hal_pin_new name type data_ptr_addr comp_id =>
      exact .map ((ha.hal_pin_new name type data_ptr_addr comp_id).mono
        fun _ _ _ ht => keep (fun _ => id) ht.1.1)
  | hal_get_stats stats =>
      exact .map ((ha.hal_get_stats stats).mono fun _ _ _ ht => keep (fun _ => id) ht)
  | hal_set_lock lock_type =>
      exact .map ((ha.hal_set_lock lock_type).mono fun _ _ _ ht => keep (fun _ => id) ht)
  | hal_get_lock => exact .map (ha.hal_get_lock.mono fun _ _ _ ht => keep (fun _ => id) ht)
  | hal_start_threads =>
      exact .map (ha.hal_start_threads.mono fun _ _ _ ht => keep (fun _ => id) ht)
  | hal_stop_threads =>
      exact .map (ha.hal_stop_threads.mono fun _ _ _ ht => keep (fun _ => id) ht)
  | hal_get_state => exact .map (ha.hal_get_state.mono fun _ _ _ ht => keep (fun _ => id) ht)
  | teardown => exact .map (ha.hal_app_teardown.mono fun _ _ _ ht => keep (fun _ => id) ht)

/-- One operation, by cases: on both segments it gives the same answer, and the bond grows. -/
theorem reply (h : Paired b s s') (op : Op) (hsane : op.Sane) :
    Both (op.reply R) (op.reply R) s s' fun _ t t' => ∃ b', Paired b' t t' ∧ b.Finer b' := by
  refine (h.reply_abreast op hsane).with_eq.mono fun r t t' ht => ?_
  obtain ⟨hrun, -, b', ht, hb, hnew⟩ := ht
  obtain ⟨L, hinv⟩ := h.inv
  have hrun' := Op.run_of_reply hrun
  refine ⟨b', ⟨ht, ((Op.spec R hinv op).of_ok hrun').inv hsane, fun x hx => ?_⟩, hb⟩
  rcases Op.listed_threads hinv hsane hrun' hx with hx | hx
  · exact hb.same x (h.comps x hx)
  · exact hnew x hx

/-- **A sequence of operations.** -/
theorem replies (h : Paired b s s') {ops : List Op} (hsane : ∀ op ∈ ops, op.Sane) :
    Both (replies R ops) (replies R ops) s s' fun _ t t' => ∃ b', Paired b' t t' ∧ b.Finer b' := by
  induction ops generalizing b s s' with
  | nil => exact .pure ⟨b, h, .refl b⟩
  | cons op ops ih =>
      unfold Hal.replies
      refine .bind ((h.reply op (hsane op List.mem_cons_self)).mono fun r t t' ht => .bind ?_)
      obtain ⟨b', ht, hb⟩ := ht
      refine (ih ht fun op hop => hsane op (List.mem_cons_of_mem _ hop)).mono fun rs u u' hu => ?_
      obtain ⟨b'', hu, hb'⟩ := hu
      exact .pure ⟨b'', hu, hb'.old.trans hb.old, fun x hx => hb'.same x (hb.same x hx)⟩

end Paired

end

end RTS.Hal

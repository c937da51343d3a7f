import RealTimeSystem.Main.Lifetime

/-!
# Main — the way to the exit

Once `done` is set, `main` needs nobody but the thread that prints: alone with it `main` comes from
its loop to `exit(0)` (`exit_reached`).  No call of HAL gets stuck on the way, as HAL is at rest
between two of them, and each action of `main` lowers a rank; in `stopprintf` the queue is the rank.
`stopprintf` has no `return`, and that control comes back from it is assumed: the 0 of `Alone`.
-/

namespace RTS.Main.Emctask

open RTS.Support RTS.Hal RTS.Uspace RTS.ExampleTask

variable {Q : Type} {K : Kernel} {F : Fifo Q Message 128} {cfg : Config} {w w' : Emctask Q}

/-- `main` and the thread that prints go on, and nobody else; control comes back from
`stopprintf`. -/
def Alone (_ : Emctask Q) (a : Act) : Prop := a = .main 0 ∨ a = .message .queue_function

theorem Alone.proper {a : Act} (h : Alone w a) : Proper w a := by
  rcases h with rfl | rfl
  · trivial
  · exact ⟨Messages.Act.noConfusion, fun _ => Messages.Act.noConfusion⟩

/-- The task is started, and `main` has not exited. -/
def Stage.Ends : Stage → Prop
  | looping | stopped | abandoned => True
  | _ => False

theorem Stage.Ends.inside {p : Place} (h : p.stage.Ends) (hexit : p ≠ .exited 0) :
    ¬ p.over = true := by
  cases p with
  | exited status =>
      cases status with
      | zero => exact absurd rfl hexit
      | succ _ => exact h.elim
  | killed => exact h.elim
  | _ => exact Bool.noConfusion

/-- How many actions `main` has left, less those in `stopprintf`. -/
def Place.left : Place → Nat
  | control_loop => 14
  | threads .test => 13
  | threads .stop => 12
  | threads .clear => 11
  | stopprintf _ => 10
  | shutdown _ (.threads .test) => 9
  | shutdown _ (.threads .stop) => 8
  | shutdown _ (.threads .clear) => 7
  | shutdown _ .test_task => 6
  | shutdown _ .stop_threads => 5
  | shutdown _ .shmem_delete => 4
  | shutdown _ .hal_exit => 3
  | shutdown _ .clear_task => 2
  | shutdown _ .report => 1
  | _ => 0

/-- `main` has come nearer to its end. -/
structure Nearer (w w' : Emctask Q) : Prop where
  less : w'.place.left < w.place.left
  ends : w'.place.stage.Ends
  done : w'.done = w.done

/-- It takes a branch. -/
theorem Nearer.branch {c : Prop} [Decidable c] {p q : Place} (hdone : w'.done = w.done)
    (hp : c → p.left < w.place.left ∧ p.stage.Ends)
    (hq : ¬ c → q.left < w.place.left ∧ q.stage.Ends) :
    Nearer w (w'.goto (if c then p else q)) := by
  split_ifs with h
  · exact ⟨(hp h).1, (hp h).2, hdone⟩
  · exact ⟨(hq h).1, (hq h).2, hdone⟩

theorem does_of_ok {α : Type} {x : Prog Machine α} {k : α → Emctask Q → Emctask Q} {a : α}
    {s : State Machine} (h : x w.hal = .ok a s) : w.does x k = some (k a { w with hal := s }) := by
  unfold does
  rw [h]

/-- A block that stops the threads ends, when HAL is at rest. -/
theorem block_nearer {b : Block} (at_block : Block → Place) {after : Place} {L : Lists}
    (hinv : Inv w.hal L) (hplace : w.place = at_block b)
    (htest : (at_block .stop).left < (at_block .test).left)
    (hstop : (at_block .clear).left < (at_block .stop).left)
    (hclear : after.left < (at_block .clear).left)
    (hends : (at_block .stop).stage.Ends ∧ (at_block .clear).stage.Ends ∧ after.stage.Ends) :
    ∃ w', w.block b at_block after = some w' ∧ Nearer w w' := by
  obtain ⟨he₁, he₂, he₃⟩ := hends
  unfold block
  cases b with
  | test =>
      rw [hplace]
      exact ⟨_, rfl, .branch rfl (fun _ => ⟨hplace ▸ htest, he₁⟩) fun _ =>
        ⟨hplace ▸ hclear.trans (hstop.trans htest), he₃⟩⟩
  | stop =>
      obtain ⟨r, s, hrun, -⟩ := (hal_stop_threads_inv hinv).exists_ok
      exact ⟨_, does_of_ok hrun, by rw [hplace]; exact hstop, he₂, rfl⟩
  | clear => exact ⟨_, rfl, by rw [hplace]; exact hclear, he₃, rfl⟩

/-- Each action of `main` but those in `stopprintf`. -/
theorem Sound.nearer (h : Sound cfg w w.place.stage) (hdone : w.done = true)
    (hends : w.place.stage.Ends) (hstop : ∀ b, w.place ≠ .stopprintf b)
    (hexit : w.place ≠ .exited 0) : ∃ w', Emctask.main K F cfg 0 w = some w' ∧ Nearer w w' := by
  have hserves : w.place.stage.Up → ∃ L, Inv w.hal L := fun hup =>
    have ⟨L, hinv, _⟩ := h.serves hup
    ⟨L, hinv⟩
  unfold Emctask.main
  cases hp : w.place with
  | control_loop =>
      refine ⟨_, rfl, .branch rfl (fun _ => ?_) fun hno => absurd hdone hno⟩
      rw [hp]
      exact ⟨Nat.lt_succ_self _, trivial⟩
  | threads b =>
      rw [hp] at hserves hends
      obtain ⟨L, hinv⟩ := hserves (by cases b <;> trivial)
      exact block_nearer .threads hinv hp (by decide) (by decide) (by decide)
        ⟨trivial, trivial, trivial⟩
  | stopprintf b => exact absurd hp (hstop b)
  | shutdown c at_stage =>
      cases c with
      | finish =>
          rw [hp] at hserves
          dsimp only
          unfold emctask_shutdown
          cases at_stage with
          | threads b =>
              obtain ⟨L, hinv⟩ := hserves trivial
              exact block_nearer (fun b => .shutdown .finish (.threads b)) hinv hp
                (by decide) (by decide) (by decide) ⟨trivial, trivial, trivial⟩
          | test_task =>
              rw [hp] at h
              refine ⟨_, rfl, ?_, ?_, rfl⟩
              · rw [hp]
                show Place.left (.shutdown .finish (if _ then _ else _)) < _
                rw [if_pos (h.task trivial)]
                decide
              · show Stage.Ends (Place.stage (.shutdown .finish (if _ then _ else _)))
                rw [if_pos (h.task trivial)]
                trivial
          | stop_threads =>
              obtain ⟨L, hinv⟩ := hserves trivial
              obtain ⟨r, s, hrun, -⟩ := (hal_stop_threads_inv hinv).exists_ok
              exact ⟨_, does_of_ok hrun, by rw [hp]; exact Nat.lt_succ_self _, trivial, rfl⟩
          | shmem_delete =>
              exact ⟨_, does_of_ok rfl, by rw [hp]; exact Nat.lt_succ_self _, trivial, rfl⟩
          | hal_exit =>
              obtain ⟨L, hinv⟩ := hserves trivial
              obtain ⟨r, s, hrun, -⟩ := (hal_exit_spec (rtapi K) hinv w.mot_comp_id).exists_ok
              exact ⟨_, does_of_ok hrun, by rw [hp]; exact Nat.lt_succ_self _, trivial, rfl⟩
          | clear_task => exact ⟨_, rfl, by rw [hp]; exact Nat.lt_succ_self _, trivial, rfl⟩
          | report =>
              obtain ⟨r, s, hrun, -⟩ := (hal_get_state_returns w.hal).exists_ok
              exact ⟨_, does_of_ok hrun, by rw [hp]; exact Nat.lt_succ_self _, trivial, rfl⟩
      | _ =>
          rw [hp] at hends
          exact hends.elim
  | exited status =>
      rw [hp] at hends hexit
      cases status with
      | zero => exact absurd rfl hexit
      | succ _ => exact hends.elim
  | _ =>
      rw [hp] at hends
      exact hends.elim

/-! ### `stopprintf` -/

theorem alone_step {a : Act} (ha : ∀ v : Emctask Q, Alone v a) (hw : step K F cfg a w = some w') :
    Reached (step K F cfg) Alone w w' := Reached.start.next (ha w) hw

/-- Where `main` is in `stopprintf`, an access of the messages is an action of the process. -/
theorem access_messages {b : Messages.Act} {a : Act} (ha : ∀ v : Emctask Q, Alone v a)
    (hstep : ∀ (v : Emctask Q) (m : Messages Q), v.place = .stopprintf false →
      Messages.step F b v.messages = some m → step K F cfg a v = some { v with messages := m })
    (n : Nat) {m : Messages Q} (hplace : w.place = .stopprintf false)
    (h : acted (Messages.step F) (List.replicate n b) w.messages = some m) :
    Reached (step K F cfg) Alone w { w with messages := m } := by
  induction n generalizing w with
  | zero =>
      cases h
      exact .start
  | succ n ih =>
      obtain ⟨m₁, h₁, h₂⟩ := Option.bind_eq_some_iff.mp h
      exact (alone_step ha (hstep w m₁ hplace h₁)).trans (ih (w := { w with messages := m₁ })
        hplace h₂)

theorem step_stopprintf (hplace : w.place = .stopprintf false) {m : Messages Q}
    (h : Messages.step F .stopprintf w.messages = some m) :
    step K F cfg (.main 0) w = some { w with messages := m } := by
  have hin : w.messages.stop ≠ .ended := fun e => by
    simp only [Messages.step, Messages.stopprintf, e] at h
    cases h
  unfold step
  rw [hplace, if_neg (by decide)]
  unfold main
  simp only [hplace, if_neg hin, h, Option.map_some]

/-- `main` goes on when control comes back. -/
theorem step_past (hplace : w.place = .stopprintf false) (h : w.messages.stop = .ended) :
    step K F cfg (.main 0) w = some (w.goto (.shutdown .finish (.threads .test))) := by
  unfold step
  rw [hplace, if_neg (by decide)]
  unfold main
  simp only [hplace, if_pos h, ne_eq, not_true_eq_false, Bool.false_eq_true, if_false]

theorem step_queue_function (hplace : w.place = .stopprintf false) {m : Messages Q}
    (h : Messages.step F .queue_function w.messages = some m) :
    step K F cfg (.message .queue_function) w = some { w with messages := m } := by
  unfold step
  rw [hplace, if_neg (by decide)]
  simp only [h, Option.map_some]

/-- It comes to its end, as `main` and the reader go on. -/
theorem stopprintf_goes (hb : Messages.Balanced F w.messages)
    (hplace : w.place = .stopprintf false) : ∃ m, m.stop = .ended ∧
      Reached (step K F cfg) Alone w { w with messages := m } := by
  have hmain : ∀ v : Emctask Q, Alone v (.main 0) := fun _ => .inl rfl
  have hreader : ∀ v : Emctask Q, Alone v (.message .queue_function) := fun _ => .inr rfl
  -- once it was called
  have hcalled : ∀ {w : Emctask Q}, Messages.Balanced F w.messages →
      w.place = .stopprintf false → w.messages.stop ≠ .before → ∃ m, m.stop = .ended ∧
        Reached (step K F cfg) Alone w { w with messages := m } := by
    intro w hb hplace hs
    by_cases hret : w.messages.stop = .ended
    · exact ⟨w.messages, hret, .start⟩
    obtain ⟨n, k, m₁, m, hn, hk, hsealed⟩ := hb.comes_to_end hs hret
    refine ⟨m, hsealed.ended, ?_⟩
    refine Reached.trans (access_messages hreader (fun _ _ hp hm => step_queue_function hp hm) n
      hplace hn) ?_
    exact access_messages (w := { w with messages := m₁ }) hmain
      (fun _ _ hp hm => step_stopprintf hp hm) k hplace hk
  by_cases hs : w.messages.stop = .before
  · obtain ⟨m, hm, hne⟩ : ∃ m, Messages.step F .stopprintf w.messages = some m ∧
        m.stop ≠ .before := by
      simp only [Messages.step, Messages.stopprintf, hs]
      split_ifs
      · exact ⟨_, rfl, Messages.Stop.noConfusion⟩
      · exact ⟨_, rfl, Messages.Stop.noConfusion⟩
    obtain ⟨m', hret, hreach⟩ := hcalled (w := { w with messages := m }) (hb.step hm) hplace hne
    exact ⟨m', hret, (alone_step hmain (step_stopprintf hplace hm)).trans hreach⟩
  · exact hcalled hb hplace hs

/-! ### All the way -/

/-- **`main` exits.**  From any state of any run in which the task is started and `done` is set,
`main` comes to `exit(0)`, by itself and with the thread that prints, if control comes back from
`stopprintf`. -/
theorem exit_reached {q : Q} (hq : F.contents q = [])
    (h : Reached (step K F cfg) Proper (launched { rtapi_msg_queue := q }) w)
    (hends : w.place.stage.Ends) (hdone : w.done = true) :
    ∃ w', Reached (step K F cfg) Alone w w' ∧ w'.place = .exited 0 := by
  induction hk : w.place.left using Nat.strongRecOn generalizing w with
  | _ k ih =>
      have hmore : ∀ {v : Emctask Q}, Reached (step K F cfg) Alone w v → Nearer w v →
          ∃ w', Reached (step K F cfg) Alone w w' ∧ w'.place = .exited 0 := by
        intro v hv hnear
        obtain ⟨w', hw', hexit⟩ := ih _ (hk ▸ hnear.less)
          (h.trans (hv.mono fun _ _ => Alone.proper)) hnear.ends (hnear.done.trans hdone) rfl
        exact ⟨w', hv.trans hw', hexit⟩
      by_cases hexit : w.place = .exited 0
      · exact ⟨w, .start, hexit⟩
      by_cases hstop : w.place = .stopprintf false
      · obtain ⟨m, hret, hreach⟩ : ∃ m, m.stop = .ended ∧
            Reached (step K F cfg) Alone w { w with messages := m } :=
          stopprintf_goes (reached_balanced hq h) hstop
        refine hmore (hreach.trans (alone_step (fun _ => .inl rfl) (step_past hstop hret)))
          ⟨?_, trivial, rfl⟩
        rw [hstop]
        exact Nat.lt_succ_self 9
      · have hno : ∀ b, w.place ≠ .stopprintf b := fun b e => by
          cases b with
          | false => exact hstop e
          | true =>
              rw [e] at hends
              exact hends
        obtain ⟨v, hv, hnear⟩ := (reached_sound h).nearer (F := F) hdone hends hno hexit
        refine hmore (alone_step (fun _ => .inl rfl) ?_) hnear
        unfold step
        rw [if_neg (hends.inside hexit)]
        exact hv

theorem exit_reached_sample :
    ∃ w', Reached runs Alone (played signalled) w' ∧ w'.place = .exited 0 := by
  have hplace : (played signalled).place = .control_loop := by decide +kernel
  refine exit_reached rfl (played_reached ?_ (by decide +kernel)) (hplace ▸ trivial)
    (by decide +kernel)
  exact fun a ha => List.mem_append_left _ (List.mem_append_left _ ha)

end RTS.Main.Emctask

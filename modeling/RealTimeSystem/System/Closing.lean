import RealTimeSystem.Support.Steps
import RealTimeSystem.Hal.Sections
import RealTimeSystem.System.Orphans

/-!
# System — HAL goes down beside a creator

One thread runs `hal_app_exit` and another calls `hal_create_thread`, each section by section; what
is under the mutex is one section.  `hal_app_exit` sets `HAL_S_SHUTTING_DOWN` and deletes the
threads, but `hal_create_thread` does not look at the state.

**`no_thread_left`**: as long as no thread is made once they are deleted, none is listed and no task
is alive from then on.  **`thread_left`**: one can be made before the segment is detached.
-/

namespace RTS.Uspace

open RTS.Support RTS.Hal Sections

variable {K : Kernel} {s s' s₁ : State Machine} {L L' : Lists}

/-! ### The two threads -/

/-- What `hal_app_exit` does next. -/
inductive Exit where
  | begins | removes | detaches | releases | marks | complete | refused
  deriving DecidableEq

/-- The removal is done, and the mutex released. -/
def Exit.Past : Exit → Prop
  | detaches | releases | marks | complete => True
  | begins | removes | refused => False

instance : DecidablePred Exit.Past := fun e => by
  cases e <;> unfold Exit.Past <;> infer_instance

/-- The sections of `hal_app_exit`. -/
def Exit.section (K : Kernel) : Exit → Option (Prog Machine Exit)
  | begins => some do return if ← app_exit_begin then removes else refused
  | removes => some do
      app_exit_remove (rtapi K)
      return detaches
  | detaches => some do
      let s ← get
      let _ ← call ((rtapi K).shmem_delete s.lib_mem_id s.lib_module_id)
      return releases
  | releases => some do
      let s ← get
      let _ ← call ((rtapi K).exit s.lib_module_id)
      return marks
  | marks => some do
      change fun m => { m with state := .destroyed }
      return complete
  | complete | refused => none

/-- Where `hal_create_thread` is: not called, past its checks, or on its listed thread. -/
inductive Create : Type 1 where
  | idle
  | checked (name : CStr) (period_nsec : Nat) (uses_fp priority : Int)
  | listed (rest : Sections Stop (State Machine) Int)

structure Closing where
  hal : State Machine
  exit : Exit
  create : Create

namespace Closing

inductive Act where
  | exit
  | create (name : CStr) (period_nsec : Nat) (uses_fp priority : Int)
  | proceed

/-- A section that returns. -/
def completes {α : Type} (x : Prog Machine α) (s : State Machine) : Option (α × State Machine) :=
  match x s with
  | .ok a s' => some (a, s')
  | .error _ _ => none

def step (K : Kernel) (a : Act) (w : Closing) : Option Closing :=
  match a, w.create with
  | .exit, _ => (w.exit.section K).elim none fun x =>
      (completes x w.hal).map fun p => { w with hal := p.2, exit := p.1 }
  | .create name period_nsec uses_fp priority, .idle =>
      (completes (create_thread_check name period_nsec) w.hal).map fun p =>
        { w with
          hal := p.2
          create := p.1.elim (.checked name period_nsec uses_fp priority) fun _ => .idle }
  | .proceed, .checked name period_nsec uses_fp priority =>
      (completes (create_thread_task (rtapi K) name period_nsec uses_fp priority) w.hal).map fun p =>
        { w with
          hal := p.2
          create := match p.1 with
            | .error _ => .idle
            | .ok new => .listed (Cut.create_thread_comp (rtapi K) new) }
  | .proceed, .listed (.done _) => some { w with create := .idle }
  | .proceed, .listed rest => (rest.advance w.hal).map fun p =>
      { w with hal := p.2, create := .listed p.1 }
  | _, _ => none

end Closing

/-! ### What a creator does on its listed thread -/

/-- The threads with the ids of their tasks. -/
def employed (g : Registry) : List (Nat × Int) := g.heads.map fun h => (h.1, h.2.task_id)

/-- The threads and the tasks are left alone. -/
structure Spared (s : State Machine) (L : Lists) (s' : State Machine) (L' : Lists) : Prop where
  inv : Inv s' L'
  lock : s'.shm.lock = s.shm.lock
  employed : employed (view s'.shm L') = employed (view s.shm L)
  table : s'.rt.process.task_array = s.rt.process.task_array

def Aside (s s' : State Machine) : Prop := ∀ L, Inv s L → ∃ L', Spared s L s' L'

namespace Spared

theorem of_threads {evs : List Event} (hm : Moved s L evs s' L')
    (ht : (view s'.shm L').threads = (view s.shm L).threads) (hrt : s'.rt = s.rt) :
    Spared s L s' L' where
  inv := hm.inv
  lock := hm.lock
  employed := by rw [Uspace.employed, Registry.heads, ht, Uspace.employed, Registry.heads]
  table := by rw [hrt]

theorem of_kept (h : Kept s L s' L') : Spared s L s' L' := by
  obtain ⟨evs, hm⟩ := h.moved
  exact of_threads hm h.threads h.still.rt

/-- Something of a component is registered. -/
theorem of_refines {r comp_id : Int} {spec : Int × List Event} (hr : Refines s L spec r s')
    (hspec : ∀ ev ∈ spec.2, (view s.shm L).Holder comp_id ev) : ∃ L', Spared s L s' L' :=
  (hr.enrolled comp_id hspec).imp fun _ he => of_kept (.of_enrolled he)

/-- A call on RTAPI that leaves the table alone. -/
theorem rt {α : Type} {x : Sys α} (hx : Throughout SameTasks x) (h : Inv s L) :
    Spared s L { s with rt := (perform K x s.rt).2 } L :=
  ⟨((Moved.refl h).outside _ _ _).inv, rfl, rfl, perform_of_every (K := K) (m := s.rt) (hx _ [])⟩

/-- A store to a value. -/
theorem data (h : Inv s L) (p : Addr) (v : Int) : Spared s L (s.setData p v) L :=
  have he : Enrolled s L 0 [] s L := .refl h
  of_kept (.of_enrolled (he.setData p v))

/-- The component of a thread is noted. -/
theorem comp (h : Inv s L) (t : Nat) (comp_id : Int) :
    Spared s L { s with shm := s.shm.setThread t { s.shm.thread t with comp_id := comp_id } } L := by
  have hname : { s.shm.thread t with comp_id := comp_id }.name = (s.shm.thread t).name := rfl
  obtain ⟨hg, hv⟩ := h.good.setThread t hname
  refine ⟨{ h with good := hg }, rfl, ?_, rfl⟩
  rw [Uspace.employed, Uspace.employed, heads_view, heads_view, List.map_map, List.map_map]
  refine List.map_congr_left fun u _ => ?_
  by_cases hu : u = t
  · subst hu
    simp [Segment.setThread]
  · simp [Segment.setThread, hu]

end Spared

namespace Aside

variable {α : Type}

/-- A section that is known for every registry. -/
theorem part {x : Prog Machine α}
    (h : ∀ s L, Inv s L → Wp x s (fun _ s' => ∃ L', Spared s L s' L') fun _ _ => True) :
    Each Aside (part x) :=
  .part fun s => by
    unfold Wp
    cases hx : x s with
    | ok a s' => exact fun L hL => (h s L hL).of_ok hx
    | error e s' => trivial

theorem refl (s : State Machine) : Aside s s := fun L h => ⟨L, h, rfl, rfl, rfl⟩

theorem call {x : Sys α} (hx : Throughout SameTasks x) :
    Each Aside (Sections.part (Hal.call (perform K x) : Prog Machine α)) :=
  part fun _ L h => ⟨L, .rt hx h⟩

theorem hal_init_comp {name : CStr} (hn : ¬ name.length > HAL_NAME_LEN) :
    Each Aside (Cut.hal_init_comp (rtapi K) name) := by
  refine .bind (call (SameTasks.rtapi_init _)) fun comp_id => .ite (fun _ => .pure _) fun hid => ?_
  refine .bind (part fun s L h => ?_) fun made => ?_
  · refine ((init_insert_spec h hn hid rfl).to_wp (E := fun _ _ => True)).mono
      (fun made s' ⟨⟨L', hm⟩, hstill, _⟩ => ⟨L', .of_threads hm ?_ hstill.rt⟩) fun _ _ => id
    rw [hm.events, Registry.init_threads]
  · cases made with
    | error e => exact .bind (call (SameTasks.rtapi_exit _)) fun _ => .pure _
    | ok x =>
        refine .bind (part fun s L h => ?_) fun _ => .bind (part fun s L h => ?_) fun _ => .pure _
        · obtain ⟨hg, hv⟩ := h.good.setComp x { s.shm.comp x with type := .realtime, pid := 0 }
          refine ⟨L, { h with good := hg }, rfl, ?_, rfl⟩
          rfl
        · exact ⟨L, ((Moved.refl h).outside _ _ _).inv, rfl, rfl, rfl⟩

theorem hal_init (name : CStr) : Each Aside (Cut.hal_init (rtapi K) name) := by
  refine .ite (fun _ => .pure _) fun hn => .bind (part fun s L h => ?_) fun retval => ?_
  · -- the library is up
    rw [wp_bind, wp_get, if_neg h.mem_id]
    exact refl s L h
  · exact .ite (fun _ => .pure _) fun _ => hal_init_comp hn

theorem checks {x : Prog Machine α} (hx : ∀ s, Wp x s (fun _ s' => s' = s) fun _ _ => True) :
    Each Aside (Sections.part x) :=
  part fun s L h => (hx s).mono (fun _ _ e => e ▸ refl s L h) fun _ _ => id

theorem hal_param_new (name : CStr) (type : HalType) (dir : ParamDir) (data_addr : Addr)
    (comp_id : Int) : Each Aside (Cut.hal_param_new name type dir data_addr comp_id) := by
  refine .bind (checks fun s => ?_) fun made => ?_
  · unfold param_new_check
    rw [wp_bind, wp_get]
    split_ifs <;> rfl
  · cases made with
    | error e => exact .pure _
    | ok base =>
        refine part fun s L h => ?_
        refine (param_new_insert_refines h base name type dir data_addr comp_id).to_wp.mono
          (fun _ _ hr => Spared.of_refines hr fun _ => Registry.register_for fun _ => rfl)
          fun _ _ => id

theorem hal_pin_new (name : CStr) (type : HalType) (data_ptr_addr : Addr) (comp_id : Int) :
    Each Aside (Cut.hal_pin_new name type data_ptr_addr comp_id) := by
  refine .bind (checks fun s => ?_) fun made => ?_
  · unfold pin_new_check
    rw [wp_bind, wp_get]
    refine .ite (fun _ => rfl) fun _ => wp_bind.mpr (wp_load_or (fun _ => ?_) fun _ => trivial)
    split_ifs <;> rfl
  · cases made with
    | error e => exact .pure _
    | ok base =>
        refine part fun s L h => ?_
        refine (pin_new_insert_refines h base name type data_ptr_addr comp_id).to_wp.mono
          (fun _ _ hr => Spared.of_refines hr.1 fun _ => Registry.register_for fun _ => rfl)
          fun _ _ => id

/-- **The rest of `hal_create_thread`**, from any states in which its sections run. -/
theorem create_thread_comp (new : Nat) : Each Aside (Cut.create_thread_comp (rtapi K) new) := by
  refine .bind (checks fun s => rfl) fun s => .bind (hal_init _) fun comp_id => ?_
  refine .bind (part fun s L h => ⟨L, .comp h new comp_id⟩) fun _ =>
    .ite (fun _ => .pure _) fun _ => ?_
  refine .bind (part fun s L h => ⟨L, .data h _ _⟩) fun _ => ?_
  refine .bind (hal_param_new _ _ _ _ _) fun retval => .ite (fun _ => .pure _) fun _ => ?_
  refine .bind (.ite (fun _ => .pure _) fun _ => hal_pin_new _ _ _ _) fun retval => ?_
  refine .ite (fun _ => .pure _) fun _ => .bind (part fun s L h => ?_) fun _ => ?_
  · unfold storeThrough store
    rw [wp_bind, wp_look]
    exact .ite (fun _ => trivial) fun _ => ⟨L, .data h _ _⟩
  · refine .bind (part fun s L h => ?_) fun _ => .pure _
    refine (hal_ready_refines h comp_id).to_wp.mono (fun _ s' hr => ?_) fun _ _ => id
    obtain ⟨L', hk⟩ := Kept.of_set h (fun c c' hc => by
      split_ifs at hc
      obtain rfl := Option.some.inj hc
      exact ⟨rfl, rfl⟩) hr
    exact ⟨L', .of_kept hk⟩

end Aside

/-! ### What holds in every interleaving -/

theorem NoOrphan.spared {L : Lists} (h : NoOrphan (view s.shm L) s.rt.process)
    (hs : Spared s L s' L') : NoOrphan (view s'.shm L') s'.rt.process := fun n hn => by
  obtain ⟨u, hu, hid⟩ := h n ((alive_of_tasks hs.table n).mp hn)
  have hmem : (u.1, u.2.task_id) ∈ employed (view s'.shm L') := by
    rw [hs.employed]
    exact List.mem_map_of_mem hu
  obtain ⟨v, hv, e⟩ := List.mem_map.mp hmem
  exact ⟨v, hv, (Prod.mk.inj e).2.trans hid⟩

theorem employed_nil {m : Segment} : employed (view m L) = [] ↔ L.act .thread = [] := by
  rw [employed, heads_view, List.map_map, List.map_eq_nil_iff]

/-- What the creator knows. -/
def Create.Fits (s : State Machine) : Create → Prop
  | idle => True
  | checked name period_nsec _ _ => Admits s name period_nsec
  | listed rest => rest.Each Aside

theorem Create.Fits.lock {c : Create} (h : c.Fits s) (hl : s'.shm.lock = s.shm.lock) : c.Fits s' := by
  cases c with
  | idle => trivial
  | checked name period_nsec uses_fp priority => exact ⟨h.1, h.2.1, by rw [hl]; exact h.2.2⟩
  | listed rest => exact h

/-- The tasks are those of the threads, and there are none once these are removed. -/
def Cleared (e : Exit) (s : State Machine) (L : Lists) : Prop :=
  Inv s L ∧ NoOrphan (view s.shm L) s.rt.process ∧ (e.Past → L.act .thread = [])

namespace Cleared

variable {e e' : Exit}

theorem spared (h : Cleared e s L) (hs : Spared s L s' L') (he : e'.Past → e.Past) :
    Cleared e' s' L' :=
  ⟨hs.inv, h.2.1.spared hs, fun hp => employed_nil.mp
    (hs.employed.trans (employed_nil.mpr (h.2.2 (he hp))))⟩

theorem state (h : Cleared e s L) (st : HalState) (he : e'.Past → e.Past) :
    Cleared e' { s with shm := { s.shm with state := st } } L :=
  h.spared ⟨h.1.flags s.shm.lock st s.shm.threads_running, rfl, rfl, rfl⟩ he

/-- **A section of `hal_app_exit`.** -/
theorem exits (h : Cleared e s L) {x : Prog Machine Exit} (hx : e.section K = some x)
    (hrun : x s = .ok e' s') : ∃ L', Cleared e' s' L' ∧ s'.shm.lock = s.shm.lock := by
  cases e with
  | begins =>
      cases hx
      have hw : Wp
          (do return if ← app_exit_begin then Exit.removes else .refused : Prog Machine Exit) s
          (fun e' s' => ¬ e'.Past ∧ ∃ st, s' = { s with shm := { s.shm with state := st } })
          fun _ _ => True := by
        unfold app_exit_begin
        rw [wp_bind, wp_bind, wp_get]
        refine .ite (fun _ => ⟨id, s.shm.state, rfl⟩) fun _ => ?_
        exact .ite (fun _ => ⟨id, s.shm.state, rfl⟩) fun _ => ⟨id, .shutting_down, rfl⟩
      obtain ⟨hp, st, rfl⟩ := hw.of_ok hrun
      exact ⟨L, h.state st fun hp' => absurd hp' hp, rfl⟩
  | removes =>
      cases hx
      have hw : Returns (do app_exit_remove (rtapi K); return .detaches : Prog Machine Exit) s
          fun e' s' => e' = .detaches ∧ ∃ L', Moved s L ((L.act .thread).map .dropThread) s' L' ∧
            L'.act .thread = [] ∧ s'.rt = unmake_threads (rtapi K) (view s.shm L).threads s.rt :=
        returns_bind.mpr ((app_exit_remove_spec (rtapi K) h.1).mono fun _ s' hs => ⟨rfl, hs⟩)
      obtain ⟨rfl, L', hm, hnil, hrt⟩ := hw.of_ok hrun
      refine ⟨L', ⟨hm.inv, fun n hn => ?_, fun _ => hnil⟩, hm.lock⟩
      rw [hrt] at hn
      exact absurd hn (h.2.1.unmade rfl n)
  | detaches =>
      cases hx
      cases hrun
      exact ⟨L, h.spared (.rt (SameTasks.rtapi_shmem_delete _ _) h.1) fun _ => trivial, rfl⟩
  | releases =>
      cases hx
      cases hrun
      exact ⟨L, h.spared (.rt (SameTasks.rtapi_exit _) h.1) fun _ => trivial, rfl⟩
  | marks =>
      cases hx
      cases hrun
      exact ⟨L, h.state .destroyed fun _ => trivial, rfl⟩
  | complete => cases hx
  | refused => cases hx

end Cleared

namespace Closing

variable {w w' : Closing} {a : Act}

/-- No thread is made once they are removed. -/
def Careful (K : Kernel) (w : Closing) : Act → Prop
  | .proceed => ∀ name period_nsec uses_fp priority,
      w.create = .checked name period_nsec uses_fp priority → w.exit.Past →
        ¬ (Makes w.hal name period_nsec ∧ Employs (rtapi K) w.hal period_nsec uses_fp priority)
  | _ => True

structure Safe (w : Closing) : Prop where
  cleared : ∃ L, Cleared w.exit w.hal L
  fits : w.create.Fits w.hal

theorem completes_eq {α : Type} {x : Prog Machine α} {p : α × State Machine}
    (h : completes x s = some p) : x s = .ok p.1 p.2 := by
  unfold completes at h
  split at h <;> cases h
  assumption

theorem Safe.exit (h : Safe w) (hs : step K .exit w = some w') : Safe w' := by
  obtain ⟨L, hL⟩ := h.cleared
  simp only [step] at hs
  cases hx : w.exit.section K with
  | none =>
      rw [hx] at hs
      cases hs
  | some x =>
      rw [hx] at hs
      obtain ⟨p, hp, rfl⟩ := Option.map_eq_some_iff.mp hs
      obtain ⟨L', hc, hl⟩ := hL.exits hx (completes_eq hp)
      exact ⟨⟨L', hc⟩, h.fits.lock hl⟩

theorem Safe.create (h : Safe w) {name : CStr} {period_nsec : Nat} {uses_fp priority : Int}
    (hs : step K (.create name period_nsec uses_fp priority) w = some w') : Safe w' := by
  obtain ⟨L, hL⟩ := h.cleared
  have hw : Wp (create_thread_check name period_nsec) w.hal
      (fun r s' => s' = w.hal ∧ (r = none → Admits w.hal name period_nsec)) fun _ _ => True := by
    unfold create_thread_check
    rw [wp_bind, wp_get]
    refine .ite (fun _ => ⟨rfl, nofun⟩) fun _ => .ite (fun _ => ⟨rfl, nofun⟩) fun hp => ?_
    exact .ite (fun _ => ⟨rfl, nofun⟩) fun hn => .ite (fun _ => ⟨rfl, nofun⟩) fun hl =>
      ⟨rfl, fun _ => ⟨hp, hn, hl⟩⟩
  unfold step at hs
  split at hs <;> try cases ‹Act.create _ _ _ _ = _›
  · obtain ⟨⟨r, s'⟩, hp, rfl⟩ := Option.map_eq_some_iff.mp hs
    obtain ⟨rfl, hadm⟩ := hw.of_ok (completes_eq hp)
    refine ⟨⟨L, hL⟩, ?_⟩
    cases r with
    | none => exact hadm rfl
    | some e => trivial
  · cases hs

/-- The creator takes the mutex, or goes on with its listed thread. -/
theorem Safe.proceed (h : Safe w) (hc : Careful K w .proceed) (hs : step K .proceed w = some w') :
    Safe w' := by
  obtain ⟨L, hL⟩ := h.cleared
  have hfits := h.fits
  cases hcr : w.create with
  | idle => simp [step, hcr] at hs
  | checked name period_nsec uses_fp priority =>
      simp only [step, hcr] at hs
      rw [hcr] at hfits
      obtain ⟨p, hp, rfl⟩ := Option.map_eq_some_iff.mp hs
      obtain ⟨evs, L', hm, ho, hno⟩ :=
        (create_thread_task_noOrphan uses_fp priority hL.1 hfits hL.2.1).of_ok (completes_eq hp)
      refine ⟨⟨L', hm.inv, ho, fun hpast => ?_⟩, ?_⟩
      · -- nothing is listed any more
        obtain rfl := hno (hc name period_nsec uses_fp priority hcr hpast)
        have hnil : employed (view p.2.shm L') = [] := by
          rw [hm.events]
          exact employed_nil.mpr (hL.2.2 hpast)
        exact employed_nil.mp hnil
      · obtain ⟨made, s'⟩ := p
        cases made with
        | error e => trivial
        | ok new => exact Aside.create_thread_comp new
  | listed rest =>
      rw [hcr] at hfits
      cases hr : rest with
      | done r =>
          simp only [step, hcr, hr] at hs
          cases hs
          exact ⟨⟨L, hL⟩, trivial⟩
      | next x rest' =>
          simp only [step, hcr, hr] at hs
          obtain ⟨p, hp, rfl⟩ := Option.map_eq_some_iff.mp hs
          obtain ⟨haside, heach⟩ := Each.advance (hr ▸ hfits) hp
          obtain ⟨L', hspared⟩ := haside L hL.1
          exact ⟨⟨L', hL.spared hspared id⟩, heach⟩

theorem Safe.step (h : Safe w) (hc : Careful K w a) (hs : step K a w = some w') : Safe w' := by
  cases a with
  | exit => exact h.exit hs
  | create name period_nsec uses_fp priority => exact h.create hs
  | proceed => exact h.proceed hc hs

/-- **No thread is left behind**, in any interleaving in which none is made once they are removed:
from the removal on no thread is listed, and no task is alive. -/
theorem no_thread_left {allowed : State Machine → Op → Prop} (hb : Boots (rtapi K) fresh s₁)
    (hrun : Runs (rtapi K) allowed s₁ s)
    (hw : Reached (Closing.step K) (Careful K) ⟨s, .begins, .idle⟩ w) (hp : w.exit.Past) :
    (∀ t, ¬ w.hal.shm.Listed .thread t) ∧ ∀ n, ¬ w.hal.rt.process.Alive n := by
  obtain ⟨L₀, hinv, ho⟩ := no_orphans hb hrun
  have hsafe : Safe w :=
    hw.invariant ⟨⟨L₀, hinv, ho, False.elim⟩, trivial⟩ fun _ _ _ h hc hs => h.step hc hs
  obtain ⟨L, hinv, ho, hnil⟩ := hsafe.cleared
  refine ⟨fun t ht => ?_, ho.none ?_⟩
  · have hmem := hinv.good.shape.listed.mp ht
    rw [hnil hp] at hmem
    exact absurd hmem List.not_mem_nil
  · rw [view, hnil hp]
    rfl

/-- The state after the acts. -/
def ended (w : Closing) (as : List Act) : Closing := (acted (Closing.step serving) as w).getD w

theorem ended_eq {as : List Act} (h : (acted (Closing.step serving) as w).isSome = true) :
    acted (Closing.step serving) as w = some (w.ended as) := by
  obtain ⟨w', hw⟩ := Option.isSome_iff_exists.mp h
  rw [ended, hw, Option.getD_some]

/-- A creator is past its checks when HAL goes down. -/
theorem no_thread_left_scheduled :
    ∃ w, Reached (Closing.step serving) (Careful serving) ⟨scheduled, .begins, .idle⟩ w ∧
      w.exit = .detaches ∧ (∀ t, ¬ w.hal.shm.Listed .thread t) ∧
      ∀ n, ¬ w.hal.rt.process.Alive n := by
  have hrun : Runs (rtapi serving) (fun _ _ => True) started scheduled :=
    Playable.runs ⟨trivial, trivial, by decide +kernel, trivial, trivial, by decide +kernel,
      trivial, trivial, by decide +kernel, trivial, trivial, by decide +kernel, trivial⟩ .start
  set w₀ : Closing := ⟨scheduled, .begins, .idle⟩
  set as : List Act := [.create (lit ['u']) 1000000 0 50, .exit, .exit]
  have hw : Reached (Closing.step serving) (Careful serving) w₀ (w₀.ended as) :=
    .of_acted (ended_eq (by decide +kernel)) (.of_forall (by simp [as, Careful]) _)
  have he : (w₀.ended as).exit = .detaches := by decide +kernel
  exact ⟨_, hw, he, no_thread_left started_starts.boots hrun hw (by rw [he]; trivial)⟩

/-- A creator comes when the threads are removed. -/
theorem thread_left :
    ∃ w, Reached (Closing.step serving) (fun _ _ => True) ⟨started, .begins, .idle⟩ w ∧
      w.exit = .detaches ∧ (∃ t, w.hal.shm.Listed .thread t) ∧ ∃ n, w.hal.rt.process.Alive n := by
  set w₀ : Closing := ⟨started, .begins, .idle⟩
  set as : List Act := [.exit, .exit, .create (lit ['t']) 1000000 0 50, .proceed]
  refine ⟨w₀.ended as, .of_acted (ended_eq (by decide +kernel)) (.of_forall (fun _ _ _ => trivial) _),
    by decide +kernel, ?_, 0, by decide, ?_⟩
  · exact ⟨_, (Segment.listed_one (by decide +kernel) (by decide +kernel)).mpr rfl⟩
  · have ht : ((w₀.ended as).hal.rt.process.task_array 0).any
        (fun t => decide (t.magic = TASK_MAGIC ∧ t.state = .running)) = true := by decide +kernel
    obtain ⟨t, ht, h⟩ := (Option.any_eq_true _ _).mp ht
    obtain ⟨hmagic, hstate⟩ := of_decide_eq_true h
    exact ⟨t, ht, hmagic, .inr (.inl hstate)⟩

end Closing

end RTS.Uspace

import RealTimeSystem.ExampleTask.Commands

/-!
# ExampleTask — the history of the command channel

The channel beside a trace of what its threads are seen to do, newest first: the sends that are
over, and the runs of the handler that got the mutex.

A run of the handler takes the last send since the run before, and only that one: `head` counts the
sends between two runs, modulo 2³².
-/

namespace RTS.ExampleTask

open RTS.Support

/-! ### Events -/

/-- `send_command` has unlocked the mutex; `taskCommandHandler` has got it, processes a command, has
unlocked it. -/
inductive Event where
  | sent (c : Command) | locked | processed (c : Command) | unlocked
  deriving DecidableEq

namespace Event

/-- The sends that are over, the last one first. -/
def sends : List Event → List Command
  | [] => []
  | .sent c :: t => c :: sends t
  | _ :: t => sends t

/-- The sends since a run of the handler got the mutex. -/
def since : List Event → List Command
  | [] => []
  | .sent c :: t => c :: since t
  | .locked :: _ => []
  | _ :: t => since t

/-- The commands that the handler processed, in their order. -/
def handled : List Event → List Command
  | [] => []
  | .processed c :: t => handled t ++ [c]
  | _ :: t => handled t

theorem since_prefix (t : List Event) : since t <+: sends t := by
  induction t with
  | nil => exact List.prefix_rfl
  | cons e t ih =>
      cases e with
      | sent c => exact List.cons_prefix_cons.mpr ⟨rfl, ih⟩
      | locked => exact List.nil_prefix
      | processed c => exact ih
      | unlocked => exact ih

theorem since_head {t : List Event} {c : Command} (h : (since t).head? = some c) :
    (sends t).head? = some c := by
  obtain ⟨l, hl⟩ := since_prefix t
  rw [← hl, List.head?_append, h]
  rfl

end Event

open Event

/-- What comes before an event.  A command is processed by a run that got the mutex, with a send
since the run before; it is the last one sent.  A run that is over found no send since the run
before, or processed a command. -/
def Serves : Event → List Event → Prop
  | .processed c, earlier =>
      ∃ before, earlier = .locked :: before ∧ since before ≠ [] ∧ (sends before).head? = some c
  | .unlocked, earlier =>
      ∃ before, (since before = [] ∧ earlier = .locked :: before) ∨
        (since before ≠ [] ∧ ∃ c, earlier = .processed c :: .locked :: before)
  | _, _ => True

def Served (t : List Event) : Prop :=
  ∀ later e earlier, t = later ++ e :: earlier → Serves e earlier

theorem Served.nil : Served [] := fun _ _ _ h => by simp at h

theorem Served.cons {e : Event} {t : List Event} (ht : Served t) (he : Serves e t) :
    Served (e :: t) := by
  rintro (_ | ⟨e', later⟩) x earlier heq
  · obtain ⟨rfl, rfl⟩ := List.cons.inj heq
    exact he
  · exact ht later x earlier (List.cons.inj heq).2

/-! ### The channel and its trace -/

/-- The channel, what each thread has called last (the command of `send_command`, none for the
handler), and the trace. -/
structure History (I : Type) where
  channel : Channel I
  called : I → Option Command := fun _ => none
  trace : List Event := []

namespace History

variable {I : Type}

/-- What is seen of the next access of a thread. -/
def seen (h : History I) (i : I) : List Event :=
  match h.channel.place i, h.called i with
  | .trying, _ => if h.channel.shared.command_mutex then [] else [.locked]
  | .processing c, _ => [.processed c]
  | .giving, some c => [.sent c]
  | .giving, none => [.unlocked]
  | _, _ => []

variable [DecidableEq I]

def step (self : Int) : I × Move → History I → Option (History I)
  | (i, .send_command c), h =>
      (Channel.step self (i, .send_command c) h.channel).map fun s =>
        { h with channel := s, called := Function.update h.called i (some c) }
  | (i, .taskCommandHandler), h =>
      (Channel.step self (i, .taskCommandHandler) h.channel).map fun s =>
        { h with channel := s, called := Function.update h.called i none }
  | (i, .access), h =>
      (h.channel.access self i).map fun s => { h with channel := s, trace := h.seen i ++ h.trace }

/-- The trace only watches: without it the steps are those of the channel. -/
theorem step_channel (self : Int) (a : I × Move) (h : History I) :
    (step self a h).map channel = Channel.step self a h.channel := by
  obtain ⟨i, m⟩ := a
  cases m with
  | send_command c => simp [step, Option.map_map, Function.comp_def]
  | taskCommandHandler => simp [step, Option.map_map, Function.comp_def]
  | access => simp [step, Channel.step, Option.map_map, Function.comp_def]

/-- Fewer than 2³² sends lie between two runs of the handler that get the mutex; the zeroed channel
counts as the first. -/
def Narrow (h : History I) (a : I × Move) : Prop :=
  a.2 = .access → h.channel.place a.1 = .trying → h.channel.shared.command_mutex = false →
    (since h.trace).length < 2 ^ 32

instance (h : History I) (a : I × Move) : Decidable (Narrow h a) :=
  inferInstanceAs (Decidable (_ → _ → _ → _))

/-! ### The invariant -/

/-- `head` is ahead of `tail` by the sends since the last run. -/
def Ahead (s : Shared) (t : List Event) : Prop :=
  s.head = s.tail + BitVec.ofNat 32 (since t).length

/-- The last send is in the slot. -/
def Holds (s : Shared) (t : List Event) : Prop :=
  ∀ c, (since t).head? = some c → c = ⟨s.command_id, s.command_data⟩

def Rests (h : History I) : Prop := Ahead h.channel.shared h.trace ∧ Holds h.channel.shared h.trace

/-- The run got the mutex after the sends `t`, the newest of which is `c`. -/
def Runs (h : History I) (c : Command) : Prop :=
  ∃ t, h.trace = .locked :: t ∧ (since t).head? = some c

/-- The channel with a thread inside. -/
def At (h : History I) : Place × Option Command → Prop
  | (.store_id _, _) => Ahead h.channel.shared h.trace
  | (.store_data c, _) => Ahead h.channel.shared h.trace ∧ h.channel.shared.command_id = c.id
  | (.advance c, _) => Ahead h.channel.shared h.trace ∧ h.channel.shared.command_id = c.id ∧
      h.channel.shared.command_data = c.data
  | (.compare, _) => ∃ t, h.trace = .locked :: t ∧ Ahead h.channel.shared t ∧
      Holds h.channel.shared t ∧ (since t).length < 2 ^ 32
  | (.load_id, _) => h.Runs ⟨h.channel.shared.command_id, h.channel.shared.command_data⟩
  | (.load_data id, _) => h.Runs ⟨id, h.channel.shared.command_data⟩
  | (.processing c, _) => h.Runs c
  | (.consume, _) => Serves .unlocked h.trace ∧ since h.trace = []
  | (.giving, some c) => Ahead h.channel.shared (.sent c :: h.trace) ∧
      c = ⟨h.channel.shared.command_id, h.channel.shared.command_data⟩
  | (.giving, none) => Serves .unlocked h.trace ∧ since h.trace = [] ∧
      h.channel.shared.head = h.channel.shared.tail
  | _ => True

/-- Where a thread is inside a call, it is the call recorded. -/
def Calls : Place → Option Command → Prop
  | .getting c, o | .store_id c, o | .store_data c, o | .advance c, o => o = some c
  | .trying, o | .compare, o | .load_id, o | .load_data _, o | .processing _, o | .consume, o =>
      o = none
  | _, _ => True

structure Inv (h : History I) : Prop where
  guards : Guards h.channel.shared.command_mutex (fun i => (h.channel.place i, h.called i))
    (fun p => p.1.inside) h.Rests h.At
  calls : ∀ i, Calls (h.channel.place i) (h.called i)
  served : Served h.trace
  handled : handled h.trace = h.channel.processed

variable {h h' : History I} {self : Int} {i : I} {c : Command} {p : Place}

omit [DecidableEq I] in
theorem start_inv (b : Board) : Inv (I := I) { channel := { board := b } } where
  guards :=
    { free := fun _ => ⟨rfl, nofun⟩
      empty := fun _ _ => id
      held := nofun
      one := fun _ _ hi => hi.elim
      at_place := fun _ hi => hi.elim }
  calls _ := trivial
  served := .nil
  handled := rfl

/-- The places and calls after thread `i` has moved. -/
theorem places_goto (s : Channel I) (called : I → Option Command) (o : Option Command) :
    (fun j => ((s.goto i p).place j, Function.update called i o j)) =
      Function.update (fun j => (s.place j, called j)) i (p, o) := by
  funext j
  by_cases hj : j = i
  · subst hj
    simp [Channel.goto]
  · simp [Channel.goto, Function.update_of_ne hj]

theorem places_same (s : Channel I) (called : I → Option Command) :
    (fun j => ((s.goto i p).place j, called j)) =
      Function.update (fun j => (s.place j, called j)) i (p, called i) := by
  have hsame := places_goto (i := i) (p := p) s called (called i)
  rwa [Function.update_eq_self] at hsame

theorem calls_goto {s : Channel I} {called : I → Option Command}
    (hc : ∀ j, Calls (s.place j) (called j)) (hp : Calls p (called i)) (j : I) :
    Calls ((s.goto i p).place j) (called j) := by
  by_cases hj : j = i
  · subst hj
    simpa [Channel.goto] using hp
  · simpa [Channel.goto, Function.update_of_ne hj] using hc j

/-! ### One access -/

section
variable {s : Channel I} {t : List Event}

/-- A thread inside moves on, or stays. -/
theorem Inv.within (hi : h.Inv) (hplace : s.place = h.channel.place)
    (hmutex : s.shared.command_mutex = h.channel.shared.command_mutex)
    (hin : (h.channel.place i).inside) (hp : p.inside) (hc : Calls p (h.called i))
    (hs : Served t) (hh : Event.handled t = s.processed)
    (hat : At { h with channel := s.goto i p, trace := t } (p, h.called i)) :
    Inv { h with channel := s.goto i p, trace := t } where
  guards := by
    show Guards s.shared.command_mutex (fun j => ((s.goto i p).place j, h.called j)) _ _ _
    rw [places_same, hplace, hmutex]
    exact hi.guards.within hin hp hat
  calls := calls_goto (by rw [hplace]; exact hi.calls) hc
  served := hs
  handled := hh

theorem Inv.acquire (hi : h.Inv) (hplace : s.place = h.channel.place)
    (hfree : h.channel.shared.command_mutex = false) (hmutex : s.shared.command_mutex = true)
    (hp : p.inside) (hc : Calls p (h.called i)) (hs : Served t)
    (hh : Event.handled t = s.processed)
    (hat : At { h with channel := s.goto i p, trace := t } (p, h.called i)) :
    Inv { h with channel := s.goto i p, trace := t } where
  guards := by
    have hg := hi.guards
    rw [hfree] at hg
    show Guards s.shared.command_mutex (fun j => ((s.goto i p).place j, h.called j)) _ _ _
    rw [places_same, hplace, hmutex]
    exact hg.acquire hp hat
  calls := calls_goto (by rw [hplace]; exact hi.calls) hc
  served := hs
  handled := hh

theorem Inv.release (hi : h.Inv) (hplace : s.place = h.channel.place)
    (hmutex : s.shared.command_mutex = false) (hin : (h.channel.place i).inside)
    (hs : Served t) (hh : Event.handled t = s.processed)
    (hrests : Rests { h with channel := s.goto i .idle, trace := t }) :
    Inv { h with channel := s.goto i .idle, trace := t } where
  guards := by
    show Guards s.shared.command_mutex (fun j => ((s.goto i .idle).place j, h.called j)) _ _ _
    rw [places_same, hplace, hmutex]
    exact hi.guards.release hin id hrests
  calls := calls_goto (by rw [hplace]; exact hi.calls) trivial
  served := hs
  handled := hh

/-- A thread outside calls a function, or returns from one. -/
theorem Inv.outside (hi : h.Inv) {o : Option Command} (hout : ¬ (h.channel.place i).inside)
    (hp : ¬ p.inside) (hc : Calls p o) :
    Inv { h with channel := h.channel.goto i p, called := Function.update h.called i o } where
  guards := by
    show Guards h.channel.shared.command_mutex
      (fun j => ((h.channel.goto i p).place j, Function.update h.called i o j)) _ _ _
    rw [places_goto]
    exact hi.guards.outside hout hp
  calls j := by
    by_cases hj : j = i
    · subst hj
      simpa [Channel.goto] using hc
    · simpa [Channel.goto, Function.update_of_ne hj] using hi.calls j
  served := hi.served
  handled := hi.handled

end

omit [DecidableEq I] in
theorem Inv.here (hi : h.Inv) (hp : h.channel.place i = p) (hin : p.inside) :
    (h.channel.place i).inside ∧ Calls p (h.called i) ∧ h.At (p, h.called i) := by
  have hat := hi.guards.at_place i (hp ▸ hin)
  simp only [hp] at hat
  exact ⟨hp ▸ hin, hp ▸ hi.calls i, hat⟩

/-- `head` and `tail` agree only where no send came since the last run. -/
theorem Ahead.since_nil {s : Shared} {t : List Event} (ha : Ahead s t)
    (hlt : (since t).length < 2 ^ 32) (heq : s.head = s.tail) : since t = [] := by
  rw [Ahead, heq] at ha
  have hzero : BitVec.ofNat 32 (since t).length = 0 := by
    simpa using ha.symm
  have hnat := congrArg BitVec.toNat hzero
  rw [BitVec.toNat_ofNat, Nat.mod_eq_of_lt hlt] at hnat
  exact List.eq_nil_of_length_eq_zero hnat

/-- The handler tries the mutex: it finds the slot as the sends left it, or goes away. -/
theorem Inv.trying {s : Channel I} (hi : h.Inv) (hn : h.Narrow (i, .access))
    (hp : h.channel.place i = .trying) (ha : h.channel.access self i = some s) :
    Inv { h with channel := s, trace := h.seen i ++ h.trace } := by
  simp only [Channel.access, hp] at ha
  have hcall : h.called i = none := by simpa [Calls, hp] using hi.calls i
  split_ifs at ha with hm
  · cases ha
    have hseen : h.seen i = [] := by simp [seen, hp, hm]
    rw [hseen]
    have hout := hi.outside (p := .idle) (o := h.called i) (by rw [hp]; exact id) id trivial
    rwa [Function.update_eq_self] at hout
  · cases ha
    have hseen : h.seen i = [.locked] := by simp [seen, hp, hm]
    rw [hseen]
    rw [Bool.not_eq_true] at hm
    obtain ⟨hahead, hholds⟩ : h.Rests := hi.guards.free hm
    exact hi.acquire rfl hm rfl trivial hcall (hi.served.cons trivial) hi.handled
      ⟨h.trace, rfl, hahead, hholds, hn rfl hp hm⟩

/-- The send counts: one more in the history, one more in `head`. -/
theorem Inv.advance {s : Channel I} {c : Command} (hi : h.Inv)
    (hp : h.channel.place i = .advance c) (ha : h.channel.access self i = some s) :
    Inv { h with channel := s, trace := h.seen i ++ h.trace } := by
  simp only [Channel.access, hp] at ha
  have hseen : h.seen i = [] := by simp [seen, hp]
  obtain ⟨hin, hcall, ⟨hahead, hid, hdata⟩⟩ := hi.here hp trivial
  cases ha
  rw [hseen]
  refine hi.within rfl rfl hin trivial trivial hi.served hi.handled ?_
  rw [show h.called i = some c from hcall]
  refine ⟨?_, ?_⟩
  · -- one more send, one more in `head`
    show h.channel.shared.head + 1 = h.channel.shared.tail + BitVec.ofNat 32 (_ + 1)
    rw [show h.channel.shared.head = _ from hahead, BitVec.ofNat_add, BitVec.add_assoc]
    rfl
  · show c = ⟨h.channel.shared.command_id, h.channel.shared.command_data⟩
    rw [hid, hdata]

/-- The handler compares `head` and `tail`: they differ where there is a send to serve, and the slot
holds the newest. -/
theorem Inv.compare {s : Channel I} (hi : h.Inv)
    (hp : h.channel.place i = .compare) (ha : h.channel.access self i = some s) :
    Inv { h with channel := s, trace := h.seen i ++ h.trace } := by
  simp only [Channel.access, hp] at ha
  have hseen : h.seen i = [] := by simp [seen, hp]
  obtain ⟨hin, hcall, t, htrace, hahead, hholds, hlt⟩ := hi.here hp trivial
  cases ha
  rw [hseen]
  split_ifs with hne
  · refine hi.within rfl rfl hin trivial hcall hi.served hi.handled ⟨t, htrace, ?_⟩
    -- `head` has moved, so there is a send, and the slot has the newest
    cases hsince : since t with
    | nil =>
        rw [Ahead, hsince] at hahead
        exact absurd (by simpa using hahead) hne
    | cons c l =>
        rw [hholds c (by rw [hsince]; rfl)]
        rfl
  · refine hi.within rfl rfl hin trivial trivial hi.served hi.handled ?_
    rw [show h.called i = none from hcall]
    have hnil := hahead.since_nil hlt (not_not.mp hne)
    have hover : Serves .unlocked h.trace := ⟨t, .inl ⟨hnil, htrace⟩⟩
    exact ⟨hover, htrace ▸ rfl, not_not.mp hne⟩

/-- The command is served, with what came since the last run. -/
theorem Inv.processing {s : Channel I} {c : Command} (hi : h.Inv)
    (hp : h.channel.place i = .processing c) (ha : h.channel.access self i = some s) :
    Inv { h with channel := s, trace := h.seen i ++ h.trace } := by
  simp only [Channel.access, hp] at ha
  have hseen : h.seen i = [.processed c] := by simp [seen, hp]
  obtain ⟨hin, hcall, t, htrace, hhead⟩ := hi.here hp trivial
  cases ha
  rw [hseen]
  have hne : since t ≠ [] := by
    intro hnil
    simp [hnil] at hhead
  have hserves : Serves (.processed c) h.trace := ⟨t, htrace, hne, since_head hhead⟩
  have hover : Serves .unlocked (.processed c :: h.trace) :=
    ⟨t, .inr ⟨hne, c, by rw [htrace]⟩⟩
  exact hi.within rfl rfl hin trivial hcall (hi.served.cons hserves)
    (congrArg (· ++ [c]) hi.handled) ⟨hover, by rw [htrace]; rfl⟩

/-- The mutex is given back: the handler has caught up, or the slot holds what was sent. -/
theorem Inv.giving {s : Channel I} (hi : h.Inv)
    (hp : h.channel.place i = .giving) (ha : h.channel.access self i = some s) :
    Inv { h with channel := s, trace := h.seen i ++ h.trace } := by
  simp only [Channel.access, hp] at ha
  obtain ⟨hin, -, hat⟩ := hi.here hp trivial
  cases ha
  cases hcall : h.called i with
  | none =>
      have hseen : h.seen i = [.unlocked] := by simp [seen, hp, hcall]
      rw [hcall] at hat
      obtain ⟨hover, hnil, heq⟩ := hat
      rw [hseen]
      refine hi.release rfl rfl hin (hi.served.cons hover) hi.handled ⟨?_, ?_⟩
      · show h.channel.shared.head =
          h.channel.shared.tail + BitVec.ofNat 32 (since h.trace).length
        rw [hnil, heq]
        simp
      · intro c hc
        replace hc : (since h.trace).head? = some c := hc
        rw [hnil] at hc
        cases hc
  | some c =>
      have hseen : h.seen i = [.sent c] := by simp [seen, hp, hcall]
      rw [hcall] at hat
      obtain ⟨hahead, hslot⟩ := hat
      rw [hseen]
      refine hi.release rfl rfl hin (hi.served.cons trivial) hi.handled ⟨hahead, ?_⟩
      intro c' hc'
      exact Option.some.inj hc' ▸ hslot

/-- One access, by the place it is made at. -/
theorem Inv.access {s : Channel I} (hi : h.Inv) (hn : h.Narrow (i, .access))
    (ha : h.channel.access self i = some s) :
    Inv { h with channel := s, trace := h.seen i ++ h.trace } := by
  cases hp : h.channel.place i with
  | idle =>
      simp only [Channel.access, hp] at ha
      cases ha
  | getting c =>
      simp only [Channel.access, hp] at ha
      have hseen : h.seen i = [] := by simp [seen, hp]
      rw [hseen]
      split_ifs at ha with hm
      · cases ha
        exact hi
      · cases ha
        rw [Bool.not_eq_true] at hm
        have hrests : h.Rests := hi.guards.free hm
        have hcall : h.called i = some c := by simpa [Calls, hp] using hi.calls i
        exact hi.acquire rfl hm rfl trivial hcall hi.served hi.handled hrests.1
  | trying => exact hi.trying hn hp ha
  | store_id c =>
      simp only [Channel.access, hp] at ha
      have hseen : h.seen i = [] := by simp [seen, hp]
      obtain ⟨hin, hcall, hat⟩ := hi.here hp trivial
      cases ha
      rw [hseen]
      exact hi.within rfl rfl hin trivial hcall hi.served hi.handled ⟨hat, rfl⟩
  | store_data c =>
      simp only [Channel.access, hp] at ha
      have hseen : h.seen i = [] := by simp [seen, hp]
      obtain ⟨hin, hcall, hat⟩ := hi.here hp trivial
      cases ha
      rw [hseen]
      exact hi.within rfl rfl hin trivial hcall hi.served hi.handled ⟨hat.1, hat.2, rfl⟩
  | advance c => exact hi.advance hp ha
  | compare => exact hi.compare hp ha
  | load_id =>
      simp only [Channel.access, hp] at ha
      have hseen : h.seen i = [] := by simp [seen, hp]
      obtain ⟨hin, hcall, hat⟩ := hi.here hp trivial
      cases ha
      rw [hseen]
      exact hi.within rfl rfl hin trivial hcall hi.served hi.handled hat
  | load_data id =>
      simp only [Channel.access, hp] at ha
      have hseen : h.seen i = [] := by simp [seen, hp]
      obtain ⟨hin, hcall, hat⟩ := hi.here hp trivial
      cases ha
      rw [hseen]
      exact hi.within rfl rfl hin trivial hcall hi.served hi.handled hat
  | processing c => exact hi.processing hp ha
  | consume =>
      simp only [Channel.access, hp] at ha
      have hseen : h.seen i = [] := by simp [seen, hp]
      obtain ⟨hin, hcall, hover, hnil⟩ := hi.here hp trivial
      cases ha
      rw [hseen]
      refine hi.within rfl rfl hin trivial trivial hi.served hi.handled ?_
      rw [show h.called i = none from hcall]
      exact ⟨hover, hnil, rfl⟩
  | giving => exact hi.giving hp ha

theorem Inv.step {a : I × Move} (hi : h.Inv) (hn : h.Narrow a) (ha : step self a h = some h') :
    h'.Inv := by
  obtain ⟨i, m⟩ := a
  cases m with
  | send_command c =>
      obtain ⟨s, hs, rfl⟩ := Option.map_eq_some_iff.mp ha
      obtain ⟨hidle, heq⟩ := Option.ite_none_right_eq_some.mp hs
      cases heq
      exact hi.outside (by rw [hidle]; exact id) id rfl
  | taskCommandHandler =>
      obtain ⟨s, hs, rfl⟩ := Option.map_eq_some_iff.mp ha
      obtain ⟨hidle, heq⟩ := Option.ite_none_right_eq_some.mp hs
      cases heq
      exact hi.outside (by rw [hidle]; exact id) id rfl
  | access =>
      obtain ⟨s, hs, rfl⟩ := Option.map_eq_some_iff.mp ha
      exact hi.access hn hs

/-! ### Runs -/

/-- Every run of the channel is watched, so that what is said of the histories is said of its runs. -/
theorem watched {s₀ s : Channel I} (h : Reached (Channel.step self) (fun _ _ => True) s₀ s) :
    ∃ h : History I, h.channel = s ∧
      Reached (step self) (fun _ _ => True) { channel := s₀ } h := by
  induction h with
  | start => exact ⟨_, rfl, .start⟩
  | next _ _ ha ih =>
      obtain ⟨h, rfl, hr⟩ := ih
      rw [← step_channel self _ h] at ha
      obtain ⟨h', hs, rfl⟩ := Option.map_eq_some_iff.mp ha
      exact ⟨h', rfl, hr.next trivial hs⟩

/-- **Commands are neither torn, nor repeated, nor reordered.**  The commands that the handler
processed are those of its runs, and each is the last one sent before its run. -/
theorem commands_served (self : Int) (b : Board)
    (hr : Reached (step self) Narrow { channel := { board := b } } h) :
    Served h.trace ∧ h.channel.processed = Event.handled h.trace := by
  have hi : h.Inv := hr.invariant (start_inv b) fun _ _ _ hi hn ha => hi.step hn ha
  exact ⟨hi.served, hi.handled.symm⟩

/-- Two commands are sent before the first cycle, none before the second. -/
theorem commands_served_sample : ∃ h,
    acted (step 0) (Channel.sends false (Channel.setTarget 7) ++
      Channel.sends false (Channel.setTarget 8) ++ Channel.cycle true ++
      (true, .taskCommandHandler) :: List.replicate 3 (true, .access))
      { channel := Channel.fresh } = some h ∧
    h.trace = [.unlocked, .locked, .unlocked, .processed (Channel.setTarget 8), .locked,
      .sent (Channel.setTarget 8), .sent (Channel.setTarget 7)] ∧
    Served h.trace ∧ h.channel.processed = Event.handled h.trace := by
  have hrun : acted (step 0) (Channel.sends false (Channel.setTarget 7) ++
      Channel.sends false (Channel.setTarget 8) ++ Channel.cycle true ++
      (true, .taskCommandHandler) :: List.replicate 3 (true, .access))
      { channel := Channel.fresh } = some _ := rfl
  exact ⟨_, hrun, rfl, commands_served 0 Channel.fresh.board (.of_acted hrun (by decide))⟩

end History

end RTS.ExampleTask

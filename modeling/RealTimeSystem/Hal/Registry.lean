import RealTimeSystem.Hal.Layout
import Mathlib.Data.List.Nodup
import RealTimeSystem.Support.Sorted

/-!
# HAL — the registry, what HAL is for

The abstract state: tables of what is registered, each entry with its offset as key, and for each
thread the sequence of function entries it runs.  There are no links, free lists or memory.  An
`Event` is what an operation does to the tables; `Refine.lean` shows that every operation on the
segment is a sequence of events on the registry.

`Sound` is what holds between the tables:

* the tables of functions, parameters and pins are sorted by name, and thread names differ;
* a function's `users` is the number of entries that call it (`counted`), every entry calls a
  listed function (`linked`), and a function that is not re-entrant has at most one (`single`);
* functions and parameters belong to listed components (`owned`).

**`Sound.apply`**: every event that is possible (`Event.Ok`) keeps the registry sound.
-/

namespace RTS.Hal

open RTS.Support

/-- A listed thread and its schedule. -/
structure Slot where
  off : Nat
  thread : Thread
  entries : List (Nat × Entry)
  deriving DecidableEq

/-- What is registered. -/
structure Registry where
  comps : List (Nat × Comp) := []
  pins : List (Nat × Pin) := []
  params : List (Nat × Param) := []
  functs : List (Nat × Funct) := []
  threads : List Slot := []
  deriving DecidableEq

/-- The keys of a table. -/
abbrev keys {α : Type} (t : List (Nat × α)) : List Nat := t.map Prod.fst

/-- The order of the tables that are sorted by name. -/
def NameLt {α : Type} (name : α → CStr) (p q : Nat × α) : Prop :=
  strcmp (name p.2) (name q.2) < 0

instance {α : Type} (name : α → CStr) : DecidableRel (NameLt name) := fun _ _ =>
  inferInstanceAs (Decidable (_ < _))

theorem NameLt.trans {α : Type} (name : α → CStr) (p q r : Nat × α) :
    NameLt name p q → NameLt name q r → NameLt name p r := strcmp_trans

theorem nameLt_or {α : Type} {name : α → CStr} {p q : Nat × α} (h : name p.2 ≠ name q.2) :
    NameLt name p q ∨ NameLt name q p := by
  have h₀ : strcmp (name p.2) (name q.2) ≠ 0 := fun e => h (strcmp_eq_zero.mp e)
  have h₁ := strcmp_swap (name p.2) (name q.2)
  unfold NameLt
  omega

/-! ### Events -/

/-- What an operation does to the registry. -/
inductive Event where
  | addComp (x : Nat) (c : Comp)
  | setComp (x : Nat) (c : Comp)
  | dropComp (x : Nat)
  | addPin (x : Nat) (p : Pin)
  | addParam (x : Nat) (p : Param)
  | dropParam (x : Nat)
  | addFunct (x : Nat) (f : Funct)
  | dropFunct (x : Nat)
  | addThread (t : Nat) (th : Thread)
  | setThread (t : Nat) (th : Thread)
  | dropThread (t : Nat)
  | schedule (t i e : Nat) (r : Entry)
  | unschedule (t e f : Nat)
  deriving DecidableEq

/-- Number of entries that call `f`. -/
def calls (f : Nat) (es : List (Nat × Entry)) : Int := es.countP fun e => e.2.funct_ptr = f

/-- The entries `es` are gone: each function loses its users among them. -/
def release (es : List (Nat × Entry)) (t : List (Nat × Funct)) : List (Nat × Funct) :=
  t.map fun p => (p.1, { p.2 with users := p.2.users - calls p.1 es })

/-- The slots with the entries of `t` changed. -/
def reschedule (t : Nat) (f : List (Nat × Entry) → List (Nat × Entry)) (ss : List Slot) :
    List Slot :=
  ss.map fun s => if s.off = t then { s with entries := f s.entries } else s

namespace Registry

/-- All entries, thread by thread. -/
def entries (g : Registry) : List (Nat × Entry) := g.threads.flatMap Slot.entries

/-- The entries of thread `t`. -/
def entriesOf (g : Registry) (t : Nat) : List (Nat × Entry) :=
  (g.threads.filter fun s => s.off = t).flatMap Slot.entries

def apply (g : Registry) : Event → Registry
  | .addComp x c => { g with comps := (x, c) :: g.comps }
  | .setComp x c => { g with comps := g.comps.map fun p => if p.1 = x then (x, c) else p }
  | .dropComp x => { g with comps := g.comps.filter fun p => p.1 ≠ x }
  | .addPin x p => { g with pins := enter (NameLt Pin.name) (x, p) g.pins }
  | .addParam x p => { g with params := enter (NameLt Param.name) (x, p) g.params }
  | .dropParam x => { g with params := g.params.filter fun p => p.1 ≠ x }
  | .addFunct x f => { g with functs := enter (NameLt Funct.name) (x, f) g.functs }
  | .dropFunct x =>
      { g with
        functs := g.functs.filter fun p => p.1 ≠ x
        threads := g.threads.map fun s =>
          { s with entries := s.entries.filter fun e => e.2.funct_ptr ≠ x } }
  | .addThread t th => { g with threads := ⟨t, th, []⟩ :: g.threads }
  | .setThread t th =>
      { g with threads := g.threads.map fun s => if s.off = t then { s with thread := th } else s }
  | .dropThread t =>
      { g with
        functs := release (g.entriesOf t) g.functs
        threads := g.threads.filter fun s => s.off ≠ t }
  | .schedule t i e r =>
      { g with
        functs := g.functs.map fun p =>
          if p.1 = r.funct_ptr then (p.1, { p.2 with users := p.2.users + 1 }) else p
        threads := reschedule t (fun es => es.take i ++ (e, r) :: es.drop i) g.threads }
  | .unschedule t e f =>
      { g with
        functs := g.functs.map fun p =>
          if p.1 = f then (p.1, { p.2 with users := p.2.users - 1 }) else p
        threads := reschedule t (fun es => es.filter fun y => y.1 ≠ e) g.threads }

/-- A sequence of events. -/
def applyAll (g : Registry) (evs : List Event) : Registry := evs.foldl apply g

@[simp] theorem applyAll_nil (g : Registry) : g.applyAll [] = g := rfl

@[simp] theorem applyAll_cons (g : Registry) (ev : Event) (evs : List Event) :
    g.applyAll (ev :: evs) = (g.apply ev).applyAll evs := rfl

@[simp] theorem applyAll_append (g : Registry) (evs evs' : List Event) :
    g.applyAll (evs ++ evs') = (g.applyAll evs).applyAll evs' := List.foldl_append ..

/-- What no event of a sequence changes. -/
theorem applyAll_keeps {β : Type} {f : Registry → β} {g : Registry} {evs : List Event}
    (h : ∀ ev ∈ evs, ∀ g, f (apply g ev) = f g) : f (applyAll g evs) = f g := by
  induction evs generalizing g with
  | nil => rfl
  | cons ev evs ih =>
      exact (ih fun ev' h' => h ev' (List.mem_cons_of_mem _ h')).trans (h ev (by simp) g)

/-- What holds between the tables. -/
structure Sound (g : Registry) : Prop where
  comps_keys : (keys g.comps).Nodup
  functs_keys : (keys g.functs).Nodup
  functs_sorted : g.functs.Pairwise (NameLt Funct.name)
  params_sorted : g.params.Pairwise (NameLt Param.name)
  pins_sorted : g.pins.Pairwise (NameLt Pin.name)
  thread_keys : (g.threads.map Slot.off).Nodup
  thread_names : (g.threads.map fun s => s.thread.name).Nodup
  counted : ∀ p ∈ g.functs, p.2.users = calls p.1 g.entries
  linked : ∀ e ∈ g.entries, ∃ p ∈ g.functs,
    p.1 = e.2.funct_ptr ∧ p.2.arg = e.2.arg ∧ p.2.funct = e.2.funct
  single : ∀ p ∈ g.functs, p.2.reentrant = 0 → p.2.users ≤ 1
  owned_functs : ∀ p ∈ g.functs, p.2.owner_ptr ∈ keys g.comps
  owned_params : ∀ p ∈ g.params, p.2.owner_ptr ∈ keys g.comps

end Registry

/-- When an event is possible. -/
def Event.Ok (g : Registry) : Event → Prop
  | .addComp x _ => x ∉ keys g.comps
  | .setComp x c => ∀ p ∈ g.comps, p.1 = x → c.comp_id = p.2.comp_id ∧ c.name = p.2.name
  | .dropComp x => (∀ p ∈ g.functs, p.2.owner_ptr ≠ x) ∧ ∀ p ∈ g.params, p.2.owner_ptr ≠ x
  | .addPin _ p => ∀ q ∈ g.pins, q.2.name ≠ p.name
  | .addParam _ p => (∀ q ∈ g.params, q.2.name ≠ p.name) ∧ p.owner_ptr ∈ keys g.comps
  | .dropParam _ => True
  | .addFunct x f => x ∉ keys g.functs ∧ (∀ q ∈ g.functs, q.2.name ≠ f.name) ∧
      f.users = 0 ∧ f.owner_ptr ∈ keys g.comps
  | .dropFunct _ => True
  | .addThread t th => t ∉ g.threads.map Slot.off ∧ th.name ∉ g.threads.map fun s => s.thread.name
  | .setThread t th => ∀ s ∈ g.threads, s.off = t → th.name = s.thread.name
  | .dropThread _ => True
  | .schedule t _ _ r => t ∈ g.threads.map Slot.off ∧ ∃ p ∈ g.functs,
      p.1 = r.funct_ptr ∧ p.2.arg = r.arg ∧ p.2.funct = r.funct ∧
        (p.2.reentrant = 0 → p.2.users ≤ 0)
  | .unschedule t e f => ∃ s ∈ g.threads, s.off = t ∧ ∃ xs ys r,
      s.entries = xs ++ (e, r) :: ys ∧ e ∉ keys xs ++ keys ys ∧ r.funct_ptr = f

/-! ### Counting entries -/

@[simp] theorem calls_nil (f : Nat) : calls f [] = 0 := rfl

theorem calls_append (f : Nat) (es es' : List (Nat × Entry)) :
    calls f (es ++ es') = calls f es + calls f es' := by
  simp [calls, List.countP_append]

theorem calls_cons (f : Nat) (e : Nat × Entry) (es : List (Nat × Entry)) :
    calls f (e :: es) = calls f es + if e.2.funct_ptr = f then 1 else 0 := by
  by_cases h : e.2.funct_ptr = f <;> simp [calls, h]

theorem calls_nonneg (f : Nat) (es : List (Nat × Entry)) : 0 ≤ calls f es := by
  unfold calls; omega

theorem calls_eq_zero {f : Nat} {es : List (Nat × Entry)} :
    calls f es = 0 ↔ ∀ e ∈ es, e.2.funct_ptr ≠ f := by
  simp [calls]

/-- Dropping the entries that call `x` keeps those that call another function. -/
theorem calls_filter {f x : Nat} (h : f ≠ x) (es : List (Nat × Entry)) :
    calls f (es.filter fun e => e.2.funct_ptr ≠ x) = calls f es := by
  unfold calls
  rw [List.countP_filter]
  congr 2
  funext e
  by_cases he : e.2.funct_ptr = f <;> simp [he, h]

theorem keys_map {α : Type} {t : List (Nat × α)} {f : Nat × α → Nat × α}
    (h : ∀ p ∈ t, (f p).1 = p.1) : keys (t.map f) = keys t := by
  simp only [keys, List.map_map]
  exact List.map_congr_left h

theorem off_map {ss : List Slot} {f : Slot → Slot} (h : ∀ s, (f s).off = s.off) :
    (ss.map f).map Slot.off = ss.map Slot.off := by
  rw [List.map_map]
  exact List.map_congr_left fun s _ => h s

/-- A sorted table is sorted after a map that keeps the names. -/
theorem sorted_map {α : Type} {name : α → CStr} {t : List (Nat × α)} {f : Nat × α → Nat × α}
    (hf : ∀ p, name (f p).2 = name p.2) (h : t.Pairwise (NameLt name)) :
    (t.map f).Pairwise (NameLt name) := by
  rw [List.pairwise_map]
  exact h.imp fun {p q} hpq => by unfold NameLt; rw [hf p, hf q]; exact hpq

theorem enter_sorted {α : Type} {name : α → CStr} {t : List (Nat × α)} {p : Nat × α}
    (h : t.Pairwise (NameLt name)) (hp : ∀ q ∈ t, name q.2 ≠ name p.2) :
    (enter (NameLt name) p t).Pairwise (NameLt name) :=
  pairwise_enter (NameLt.trans name) h fun q hq => nameLt_or (hp q hq)

/-- The slot of a thread among the others. -/
theorem slot_split {ss : List Slot} (hn : (ss.map Slot.off).Nodup) {s : Slot} (hs : s ∈ ss) :
    ∃ ss₁ ss₂, ss = ss₁ ++ s :: ss₂ ∧ ∀ q ∈ ss₁ ++ ss₂, q.off ≠ s.off := by
  obtain ⟨ss₁, ss₂, rfl⟩ := List.append_of_mem hs
  refine ⟨ss₁, ss₂, rfl, fun q hq he => ?_⟩
  rw [List.map_append, List.map_cons] at hn
  have := (List.nodup_cons.mp (List.perm_middle.nodup_iff.mp hn)).1
  exact this (by rw [← List.map_append, ← he]; exact List.mem_map_of_mem hq)

theorem reschedule_split {ss₁ ss₂ : List Slot} {s : Slot}
    {f : List (Nat × Entry) → List (Nat × Entry)} (h : ∀ q ∈ ss₁ ++ ss₂, q.off ≠ s.off) :
    reschedule s.off f (ss₁ ++ s :: ss₂) = ss₁ ++ { s with entries := f s.entries } :: ss₂ := by
  have hid : ∀ ss ⊆ ss₁ ++ ss₂, ss.map (fun q =>
      if q.off = s.off then { q with entries := f q.entries } else q) = ss := fun ss hss => by
    have : ss.map (fun q => if q.off = s.off then { q with entries := f q.entries } else q) =
        ss.map id := List.map_congr_left fun q hq => by simp [h q (hss hq)]
    rw [this, List.map_id]
  unfold reschedule
  rw [List.map_append, List.map_cons, if_pos rfl, hid ss₁ (by simp), hid ss₂ (by simp)]

theorem entriesOf_split {g : Registry} {ss₁ ss₂ : List Slot} {s : Slot}
    (hg : g.threads = ss₁ ++ s :: ss₂) (h : ∀ q ∈ ss₁ ++ ss₂, q.off ≠ s.off) :
    g.entriesOf s.off = s.entries := by
  have hno : ∀ ss ⊆ ss₁ ++ ss₂, ss.filter (fun q => q.off = s.off) = [] := fun ss hss =>
    List.filter_eq_nil_iff.mpr fun q hq => by simpa using h q (hss hq)
  rw [Registry.entriesOf, hg, List.filter_append, List.filter_cons, hno ss₁ (by simp),
    hno ss₂ (by simp)]
  simp

/-! ### Events keep the registry sound -/

namespace Registry.Sound

variable {g : Registry}

theorem addComp (h : g.Sound) {x : Nat} {c : Comp} (ok : (Event.addComp x c).Ok g) :
    (g.apply (.addComp x c)).Sound :=
  { h with
    comps_keys := List.nodup_cons.mpr ⟨ok, h.comps_keys⟩
    owned_functs := fun p hp => List.mem_cons_of_mem _ (h.owned_functs p hp)
    owned_params := fun p hp => List.mem_cons_of_mem _ (h.owned_params p hp) }

theorem setComp (h : g.Sound) {x : Nat} {c : Comp} : (g.apply (.setComp x c)).Sound := by
  have hk : keys (g.apply (.setComp x c)).comps = keys g.comps :=
    keys_map fun p _ => by split_ifs with hp <;> simp [hp]
  exact
    { h with
      comps_keys := by rw [hk]; exact h.comps_keys
      owned_functs := fun p hp => by rw [hk]; exact h.owned_functs p hp
      owned_params := fun p hp => by rw [hk]; exact h.owned_params p hp }

theorem dropComp (h : g.Sound) {x : Nat} (ok : (Event.dropComp x).Ok g) :
    (g.apply (.dropComp x)).Sound := by
  have hk : ∀ y, y ∈ keys g.comps → y ≠ x → y ∈ keys (g.apply (.dropComp x)).comps := by
    intro y hy hyx
    obtain ⟨p, hp, rfl⟩ := List.mem_map.mp hy
    exact List.mem_map_of_mem (List.mem_filter.mpr ⟨hp, by simpa using hyx⟩)
  exact
    { h with
      comps_keys := h.comps_keys.sublist (List.filter_sublist.map _)
      owned_functs := fun p hp => hk _ (h.owned_functs p hp) (ok.1 p hp)
      owned_params := fun p hp => hk _ (h.owned_params p hp) (ok.2 p hp) }

theorem addPin (h : g.Sound) {x : Nat} {p : Pin} (ok : (Event.addPin x p).Ok g) :
    (g.apply (.addPin x p)).Sound :=
  { h with pins_sorted := enter_sorted h.pins_sorted ok }

theorem addParam (h : g.Sound) {x : Nat} {p : Param} (ok : (Event.addParam x p).Ok g) :
    (g.apply (.addParam x p)).Sound :=
  { h with
    params_sorted := enter_sorted h.params_sorted ok.1
    owned_params := fun q hq => by
      rcases mem_enter.mp hq with rfl | hq
      · exact ok.2
      · exact h.owned_params q hq }

theorem dropParam (h : g.Sound) {x : Nat} : (g.apply (.dropParam x)).Sound :=
  { h with
    params_sorted := h.params_sorted.filter _
    owned_params := fun q hq => h.owned_params q (List.mem_of_mem_filter hq) }

theorem addFunct (h : g.Sound) {x : Nat} {f : Funct} (ok : (Event.addFunct x f).Ok g) :
    (g.apply (.addFunct x f)).Sound := by
  obtain ⟨hx, hname, husers, howner⟩ := ok
  -- no entry calls a function that was not listed
  have hcalls : calls x g.entries = 0 := calls_eq_zero.mpr fun e he hex => by
    obtain ⟨p, hp, hpe, -⟩ := h.linked e he
    exact hx (List.mem_map.mpr ⟨p, hp, hpe.trans hex⟩)
  exact
    { h with
      functs_keys := (enter_perm.map Prod.fst).nodup_iff.mpr
        (List.nodup_cons.mpr ⟨hx, h.functs_keys⟩)
      functs_sorted := enter_sorted h.functs_sorted hname
      counted := fun p hp => by
        rcases mem_enter.mp hp with rfl | hp
        · exact husers.trans hcalls.symm
        · exact h.counted p hp
      linked := fun e he => by
        obtain ⟨p, hp, hpe⟩ := h.linked e he
        exact ⟨p, mem_enter.mpr (.inr hp), hpe⟩
      single := fun p hp hr => by
        rcases mem_enter.mp hp with rfl | hp
        · simp only [husers]; omega
        · exact h.single p hp hr
      owned_functs := fun p hp => by
        rcases mem_enter.mp hp with rfl | hp
        · exact howner
        · exact h.owned_functs p hp }

theorem dropFunct (h : g.Sound) {x : Nat} : (g.apply (.dropFunct x)).Sound := by
  have hent : (g.apply (.dropFunct x)).entries =
      g.entries.filter fun e => e.2.funct_ptr ≠ x := by
    simp [Registry.entries, Registry.apply, List.flatMap_map, List.filter_flatMap]
  exact
    { h with
      functs_keys := h.functs_keys.sublist (List.filter_sublist.map _)
      functs_sorted := h.functs_sorted.filter _
      thread_keys := by simpa [Registry.apply, Function.comp_def] using h.thread_keys
      thread_names := by simpa [Registry.apply, Function.comp_def] using h.thread_names
      counted := fun p hp => by
        obtain ⟨hp, hne⟩ := List.mem_filter.mp hp
        rw [hent, calls_filter (by simpa using hne)]
        exact h.counted p hp
      linked := fun e he => by
        rw [hent] at he
        obtain ⟨he, hne⟩ := List.mem_filter.mp he
        obtain ⟨p, hp, hpe, hrest⟩ := h.linked e he
        refine ⟨p, List.mem_filter.mpr ⟨hp, ?_⟩, hpe, hrest⟩
        simpa [hpe] using hne
      single := fun p hp => h.single p (List.mem_of_mem_filter hp)
      owned_functs := fun p hp => h.owned_functs p (List.mem_of_mem_filter hp) }

theorem addThread (h : g.Sound) {t : Nat} {th : Thread} (ok : (Event.addThread t th).Ok g) :
    (g.apply (.addThread t th)).Sound :=
  { h with
    thread_keys := List.nodup_cons.mpr ⟨ok.1, h.thread_keys⟩
    thread_names := List.nodup_cons.mpr ⟨ok.2, h.thread_names⟩ }

theorem setThread (h : g.Sound) {t : Nat} {th : Thread} (ok : (Event.setThread t th).Ok g) :
    (g.apply (.setThread t th)).Sound := by
  have hent : (g.apply (.setThread t th)).entries = g.entries := by
    simp only [Registry.entries, Registry.apply, List.flatMap_map]
    congr 1
    funext s
    split_ifs <;> rfl
  have hnames : ((g.apply (.setThread t th)).threads.map fun s => s.thread.name) =
      g.threads.map fun s => s.thread.name := by
    simp only [Registry.apply, List.map_map]
    refine List.map_congr_left fun s hs => ?_
    by_cases ht : s.off = t
    · simp [ht, ok s hs ht]
    · simp [ht]
  exact
    { h with
      thread_keys := by
        show ((g.threads.map _).map Slot.off).Nodup
        rw [off_map fun s => by split_ifs <;> rfl]; exact h.thread_keys
      thread_names := by rw [hnames]; exact h.thread_names
      counted := fun p hp => by rw [hent]; exact h.counted p hp
      linked := fun e he => h.linked e (hent ▸ he) }

/-- The entries split into those of thread `t` and the others. -/
theorem calls_dropThread (g : Registry) (t f : Nat) :
    calls f (g.apply (.dropThread t)).entries = calls f g.entries - calls f (g.entriesOf t) := by
  simp only [Registry.apply, Registry.entries, Registry.entriesOf]
  induction g.threads with
  | nil => simp
  | cons s ss ih =>
      by_cases hs : s.off = t <;>
        simp only [List.filter_cons, hs, ne_eq, not_true_eq_false, not_false_eq_true, decide_true,
          decide_false, if_true, if_false, Bool.false_eq_true, List.flatMap_cons,
          calls_append] at ih ⊢ <;>
        omega

theorem dropThread (h : g.Sound) {t : Nat} : (g.apply (.dropThread t)).Sound := by
  have hmem : ∀ p ∈ (g.apply (.dropThread t)).functs, ∃ q ∈ g.functs,
      p = (q.1, { q.2 with users := q.2.users - calls q.1 (g.entriesOf t) }) := fun p hp => by
    obtain ⟨q, hq, rfl⟩ := List.mem_map.mp hp
    exact ⟨q, hq, rfl⟩
  exact
    { h with
      functs_keys := by
        have : keys (g.apply (.dropThread t)).functs = keys g.functs := keys_map fun _ _ => rfl
        rw [this]; exact h.functs_keys
      functs_sorted := sorted_map (fun _ => rfl) h.functs_sorted
      thread_keys := h.thread_keys.sublist (List.filter_sublist.map _)
      thread_names := h.thread_names.sublist (List.filter_sublist.map _)
      counted := fun p hp => by
        obtain ⟨q, hq, rfl⟩ := hmem p hp
        rw [calls_dropThread, ← h.counted q hq]
      linked := fun e he => by
        obtain ⟨s, hs, hes⟩ := List.mem_flatMap.mp he
        obtain ⟨q, hq, hqe⟩ := h.linked e
          (List.mem_flatMap.mpr ⟨s, List.mem_of_mem_filter hs, hes⟩)
        exact ⟨_, List.mem_map_of_mem hq, hqe⟩
      single := fun p hp hr => by
        obtain ⟨q, hq, rfl⟩ := hmem p hp
        have h₁ := h.single q hq hr
        have h₂ := calls_nonneg q.1 (g.entriesOf t)
        simp only
        omega
      owned_functs := fun p hp => by
        obtain ⟨q, hq, rfl⟩ := hmem p hp
        exact h.owned_functs q hq }

/-- One slot gets new entries, and the users of one function change by the difference. -/
theorem change_slot (h : g.Sound) {ss₁ ss₂ : List Slot} {s : Slot} (es : List (Nat × Entry))
    (f : Nat) (d : Int) (hg : g.threads = ss₁ ++ s :: ss₂)
    (hcalls : ∀ x, calls x es = calls x s.entries + if x = f then d else 0)
    (hlinked : ∀ e ∈ es, ∃ p ∈ g.functs,
      p.1 = e.2.funct_ptr ∧ p.2.arg = e.2.arg ∧ p.2.funct = e.2.funct)
    (hsingle : ∀ p ∈ g.functs, p.1 = f → p.2.reentrant = 0 → p.2.users + d ≤ 1) :
    ({ g with
        functs := g.functs.map fun p =>
          if p.1 = f then (p.1, { p.2 with users := p.2.users + d }) else p
        threads := ss₁ ++ { s with entries := es } :: ss₂ } : Registry).Sound := by
  set g' : Registry := { g with
    functs := g.functs.map fun p =>
      if p.1 = f then (p.1, { p.2 with users := p.2.users + d }) else p
    threads := ss₁ ++ { s with entries := es } :: ss₂ } with hg'
  have hent : ∀ x, calls x g'.entries = calls x g.entries + if x = f then d else 0 := by
    intro x
    have := hcalls x
    simp only [Registry.entries, hg', hg, List.flatMap_append, List.flatMap_cons, calls_append]
    omega
  have hmem : ∀ p ∈ g'.functs, ∃ q ∈ g.functs, p.1 = q.1 ∧ p.2.arg = q.2.arg ∧
      p.2.funct = q.2.funct ∧ p.2.reentrant = q.2.reentrant ∧ p.2.owner_ptr = q.2.owner_ptr ∧
      p.2.users = q.2.users + if q.1 = f then d else 0 := fun p hp => by
    obtain ⟨q, hq, rfl⟩ := List.mem_map.mp hp
    refine ⟨q, hq, ?_⟩
    by_cases hqf : q.1 = f <;> simp [hqf]
  have hmem' : ∀ q ∈ g.functs, ∃ p ∈ g'.functs,
      p.1 = q.1 ∧ p.2.arg = q.2.arg ∧ p.2.funct = q.2.funct := fun q hq => by
    refine ⟨_, List.mem_map_of_mem hq, ?_⟩
    by_cases hqf : q.1 = f <;> simp [hqf]
  exact
    { h with
      functs_keys := by
        have : keys g'.functs = keys g.functs :=
          keys_map fun p _ => by dsimp only; split_ifs <;> rfl
        rw [this]; exact h.functs_keys
      functs_sorted := sorted_map (fun p => by split_ifs <;> rfl) h.functs_sorted
      thread_keys := by
        have := h.thread_keys
        rw [hg] at this
        simpa [hg'] using this
      thread_names := by
        have := h.thread_names
        rw [hg] at this
        simpa [hg'] using this
      counted := fun p hp => by
        obtain ⟨q, hq, h₁, -, -, -, -, h₂⟩ := hmem p hp
        rw [h₁, h₂, hent, h.counted q hq]
      linked := fun e he => by
        have he' : e ∈ g.entries ∨ e ∈ es := by
          simp only [Registry.entries, hg', hg, List.flatMap_append, List.flatMap_cons,
            List.mem_append] at he ⊢
          tauto
        have hold : ∃ q ∈ g.functs,
            q.1 = e.2.funct_ptr ∧ q.2.arg = e.2.arg ∧ q.2.funct = e.2.funct :=
          he'.elim (h.linked e) (hlinked e)
        obtain ⟨q, hq, h₁, h₂, h₃⟩ := hold
        obtain ⟨p, hp, e₁, e₂, e₃⟩ := hmem' q hq
        exact ⟨p, hp, e₁.trans h₁, e₂.trans h₂, e₃.trans h₃⟩
      single := fun p hp hr => by
        obtain ⟨q, hq, -, -, -, h₁, -, h₂⟩ := hmem p hp
        rw [h₁] at hr
        rw [h₂]
        by_cases hqf : q.1 = f
        · simpa [hqf] using hsingle q hq hqf hr
        · simpa [hqf] using h.single q hq hr
      owned_functs := fun p hp => by
        obtain ⟨q, hq, -, -, -, -, h₁, -⟩ := hmem p hp
        rw [h₁]; exact h.owned_functs q hq }

theorem schedule (h : g.Sound) {t i e : Nat} {r : Entry} (ok : (Event.schedule t i e r).Ok g) :
    (g.apply (.schedule t i e r)).Sound := by
  obtain ⟨ht, p, hp, h₁, h₂, h₃, h₄⟩ := ok
  obtain ⟨s, hs, rfl⟩ := List.mem_map.mp ht
  obtain ⟨ss₁, ss₂, hg, hne⟩ := slot_split h.thread_keys hs
  have := h.change_slot (s.entries.take i ++ (e, r) :: s.entries.drop i)
    r.funct_ptr 1 hg (fun x => ?_) (fun y hy => ?_) fun q hq hqf hr => ?_
  · simpa only [Registry.apply, hg, reschedule_split hne] using this
  · have hx : calls x s.entries = calls x (s.entries.take i) + calls x (s.entries.drop i) := by
      rw [← calls_append, List.take_append_drop]
    rw [hx, calls_append, calls_cons]
    simp only [eq_comm (a := x)]
    omega
  · have hy' : y = (e, r) ∨ y ∈ s.entries := by
      rcases List.mem_append.mp hy with hy | hy
      · exact .inr (List.mem_of_mem_take hy)
      · exact (List.mem_cons.mp hy).imp_right List.mem_of_mem_drop
    rcases hy' with rfl | hy'
    · exact ⟨p, hp, h₁, h₂, h₃⟩
    · exact h.linked y (List.mem_flatMap.mpr ⟨s, hs, hy'⟩)
  · -- keys are unique, so `q` is the function that was checked
    obtain rfl : q = p := List.inj_on_of_nodup_map h.functs_keys hq hp (hqf.trans h₁.symm)
    have := h₄ hr
    omega

theorem unschedule (h : g.Sound) {t e f : Nat} (ok : (Event.unschedule t e f).Ok g) :
    (g.apply (.unschedule t e f)).Sound := by
  obtain ⟨s, hs, rfl, xs, ys, r, hes, he, rfl⟩ := ok
  obtain ⟨ss₁, ss₂, hg, hne⟩ := slot_split h.thread_keys hs
  have hkeep : ∀ l : List (Nat × Entry), e ∉ keys l → l.filter (fun y => y.1 ≠ e) = l := by
    intro l hl
    refine List.filter_eq_self.mpr fun y hy => ?_
    have : y.1 ≠ e := fun hye => hl (hye ▸ List.mem_map_of_mem hy)
    simpa using this
  have hfil : s.entries.filter (fun y => y.1 ≠ e) = xs ++ ys := by
    rw [hes, List.filter_append, List.filter_cons, hkeep xs fun hm => he (by simp [hm]),
      hkeep ys fun hm => he (by simp [hm])]
    simp
  have := h.change_slot (xs ++ ys) r.funct_ptr (-1) hg (fun x => ?_)
    (fun y hy => ?_) fun q hq hqf hr => ?_
  · simp only [Registry.apply, hg, reschedule_split hne, hfil]
    exact this
  · rw [hes, calls_append, calls_append, calls_cons]
    simp only [eq_comm (a := x)]
    split_ifs <;> omega
  · refine h.linked y (List.mem_flatMap.mpr ⟨s, hs, ?_⟩)
    rw [hes]
    simp at hy ⊢
    tauto
  · have := h.single q hq hr
    omega

/-- **Events keep the registry sound.** -/
theorem apply (h : g.Sound) {ev : Event} (ok : ev.Ok g) : (g.apply ev).Sound := by
  cases ev with
  | addComp x c => exact h.addComp ok
  | setComp x c => exact h.setComp
  | dropComp x => exact h.dropComp ok
  | addPin x p => exact h.addPin ok
  | addParam x p => exact h.addParam ok
  | dropParam x => exact h.dropParam
  | addFunct x f => exact h.addFunct ok
  | dropFunct x => exact h.dropFunct
  | addThread t th => exact h.addThread ok
  | setThread t th => exact h.setThread ok
  | dropThread t => exact h.dropThread
  | schedule t i e r => exact h.schedule ok
  | unschedule t e f => exact h.unschedule ok

end Registry.Sound

end RTS.Hal

import RealTimeSystem.Hal.Abstract
import RealTimeSystem.Hal.Shape

/-!
# HAL — the segment as a registry

`view m L` is the registry that the segment holds when its structures are where `L` says.  `Good`
is what holds of a segment inside an operation, `Inv` what holds between two operations, and
`Moved s L evs s' L'` says that an operation went from the one to the other and that the registry
went through the events `evs`.

The theorems give, for each function of `Segment.lean`, the lists and the registry afterwards.
-/

namespace RTS.Hal

open RTS.Support

/-! ### The view -/

/-- The table of the structures `xs`. -/
def tab {α : Type} (f : Nat → α) (xs : List Nat) : List (Nat × α) := xs.map fun x => (x, f x)

@[simp] theorem keys_tab {α : Type} (f : Nat → α) (xs : List Nat) : keys (tab f xs) = xs := by
  simp [tab, keys, Function.comp_def]

theorem tab_congr {α : Type} {f f' : Nat → α} {xs : List Nat} (h : ∀ x ∈ xs, f' x = f x) :
    tab f' xs = tab f xs :=
  List.map_congr_left fun x hx => by rw [h x hx]

theorem tab_update {α : Type} {f : Nat → α} {x : Nat} {a : α} {xs : List Nat} (hx : x ∉ xs) :
    tab (Function.update f x a) xs = tab f xs :=
  tab_congr fun _ hy => Function.update_of_ne (ne_of_mem_of_not_mem hy hx) _ _

theorem mem_tab {α : Type} {f : Nat → α} {xs : List Nat} {p : Nat × α} :
    p ∈ tab f xs ↔ p.1 ∈ xs ∧ p.2 = f p.1 := by
  constructor
  · intro h
    obtain ⟨x, hx, rfl⟩ := List.mem_map.mp h
    exact ⟨hx, rfl⟩
  · rintro ⟨h, e⟩
    exact List.mem_map.mpr ⟨p.1, h, by rw [← e]⟩

/-- A listed thread and its ring. -/
def slot (m : Segment) (L : Lists) (t : Nat) : Slot :=
  ⟨t, m.thread t, tab m.entry (L.ring (t + THREAD_FUNCT_LIST))⟩

@[simp] theorem slot_off (m : Segment) (L : Lists) (t : Nat) : (slot m L t).off = t := rfl

@[simp] theorem slot_thread (m : Segment) (L : Lists) (t : Nat) :
    (slot m L t).thread = m.thread t := rfl

@[simp] theorem slot_entries (m : Segment) (L : Lists) (t : Nat) :
    (slot m L t).entries = tab m.entry (L.ring (t + THREAD_FUNCT_LIST)) := rfl

/-- The registry the segment holds. -/
def view (m : Segment) (L : Lists) : Registry where
  comps := tab m.comp (L.act .comp)
  pins := tab m.pin (L.act .pin)
  params := tab m.param (L.act .param)
  functs := tab m.funct (L.act .funct)
  threads := (L.act .thread).map (slot m L)

/-- Nothing registered differs between two segments. -/
structure Same (m : Segment) (L : Lists) (m' : Segment) (L' : Lists) : Prop where
  act : L'.act = L.act
  ring : ∀ t ∈ L.act .thread, L'.ring (t + THREAD_FUNCT_LIST) = L.ring (t + THREAD_FUNCT_LIST)
  comp : ∀ x ∈ L.act .comp, m'.comp x = m.comp x
  pin : ∀ x ∈ L.act .pin, m'.pin x = m.pin x
  param : ∀ x ∈ L.act .param, m'.param x = m.param x
  funct : ∀ x ∈ L.act .funct, m'.funct x = m.funct x
  thread : ∀ x ∈ L.act .thread, m'.thread x = m.thread x
  entry : ∀ t ∈ L.act .thread, ∀ e ∈ L.ring (t + THREAD_FUNCT_LIST), m'.entry e = m.entry e

namespace Same

variable {m m' : Segment} {L L' : Lists}

theorem refl (m : Segment) (L : Lists) : Same m L m L :=
  ⟨rfl, fun _ _ => rfl, fun _ _ => rfl, fun _ _ => rfl, fun _ _ => rfl, fun _ _ => rfl,
    fun _ _ => rfl, fun _ _ _ _ => rfl⟩

theorem view_eq (h : Same m L m' L') : view m' L' = view m L := by
  unfold view
  rw [h.act, tab_congr h.comp, tab_congr h.pin, tab_congr h.param, tab_congr h.funct]
  congr 1
  refine List.map_congr_left fun t ht => ?_
  rw [slot, slot, h.thread t ht, h.ring t ht, tab_congr (h.entry t ht)]

end Same

/-! ### Inside and between operations -/

/-- Nothing is known under an old name; no function ever sets one. -/
def Plain (m : Segment) : Prop := ∀ x, (m.pin x).oldname = 0 ∧ (m.param x).oldname = 0

/-- What holds of the segment inside an operation. -/
structure Good (m : Segment) (L : Lists) : Prop where
  shape : Shape m.arena L
  sound : (view m L).Sound
  plain : Plain m

/-- No operation has a structure in hand. -/
def Idle (L : Lists) : Prop := ∀ k, L.hand k = []

/-- The mutex is never asked for while it is held, and only given while it is. -/
def Orderly (locks : List LockEvent) : Prop := ∀ e ∈ locks, e = .get false ∨ e = .give true

variable {σ : Type}

/-- What holds between operations. -/
structure Inv (s : State σ) (L : Lists) : Prop where
  good : Good s.shm L
  idle : Idle L
  unlocked : s.shm.mutex = false
  attached : s.hal_data ≠ 0
  mem_id : s.lib_mem_id ≠ 0
  orderly : Orderly s.locks

/-- An operation went from `s` to `s'`, and the registry through the events `evs`. -/
structure Moved (s : State σ) (L : Lists) (evs : List Event) (s' : State σ) (L' : Lists) :
    Prop where
  inv : Inv s' L'
  events : view s'.shm L' = (view s.shm L).applyAll evs
  base : s'.hal_shmem_base = s.hal_shmem_base
  module : s'.lib_module_id = s.lib_module_id
  lock : s'.shm.lock = s.shm.lock
  state : s'.shm.state = s.shm.state

theorem Moved.refl {s : State σ} {L : Lists} (h : Inv s L) : Moved s L [] s L :=
  ⟨h, rfl, rfl, rfl, rfl, rfl⟩

theorem Moved.trans {s s' s'' : State σ} {L L' L'' : Lists} {evs evs' : List Event}
    (h : Moved s L evs s' L') (h' : Moved s' L' evs' s'' L'') :
    Moved s L (evs ++ evs') s'' L'' where
  inv := h'.inv
  events := by rw [h'.events, h.events, Registry.applyAll_append]
  base := h'.base.trans h.base
  module := h'.module.trans h.module
  lock := h'.lock.trans h.lock
  state := h'.state.trans h.state

/-- RTAPI, the count of components and the record of strikes are outside the segment. -/
theorem Moved.outside {s s' : State σ} {L L' : Lists} {evs : List Event} (h : Moved s L evs s' L')
    (rt : σ) (ref_cnt : Int) (strikes : List Strike) :
    Moved s L evs { s' with rt := rt, ref_cnt := ref_cnt, strikes := strikes } L' :=
  { h with inv := { h.inv with } }

/-! ### Searching -/

section
variable {m : Segment} {L : Lists} {k : Kind}

theorem search_eq (h : Shape m.arena L) (hk : k ≠ .entry) (test : Nat → Bool) :
    m.search k test = some (((L.act k).find? test).getD 0) :=
  Pool.Rep.find (h.rep k).used test (h.short hk)

/-- A search finds a structure in use that passes the test, or there is none. -/
theorem search_cases (h : Shape m.arena L) (hk : k ≠ .entry) (test : Nat → Bool) :
    (m.search k test = some 0 ∧ ∀ x ∈ L.act k, test x = false) ∨
      ∃ x ∈ L.act k, x ≠ 0 ∧ test x = true ∧ m.search k test = some x := by
  rw [search_eq h hk test]
  rcases hf : (L.act k).find? test with _ | x
  · exact .inl ⟨rfl, fun x hx => by simpa using List.find?_eq_none.mp hf x hx⟩
  · have hx := List.mem_of_find?_eq_some hf
    exact .inr ⟨x, hx, h.act_ne_zero hx, List.find?_some hf, rfl⟩

theorem find_comp_cases (h : Shape m.arena L) (id : Int) :
    (m.halpr_find_comp_by_id id = some 0 ∧ (view m L).findComp id = none) ∨
      ∃ x ∈ L.act .comp, x ≠ 0 ∧ m.halpr_find_comp_by_id id = some x ∧
        (view m L).findComp id = some (x, m.comp x) ∧ (m.comp x).comp_id = id := by
  have hv : (view m L).findComp id =
      ((L.act .comp).find? fun x => (m.comp x).comp_id = id).map fun x => (x, m.comp x) := by
    simp [Registry.findComp, view, tab, List.find?_map, Function.comp_def]
  rw [Segment.halpr_find_comp_by_id, search_eq h (by decide), hv]
  rcases hf : (L.act .comp).find? fun x => (m.comp x).comp_id = id with _ | x
  · exact .inl ⟨rfl, rfl⟩
  · have hx := List.mem_of_find?_eq_some hf
    exact .inr ⟨x, hx, h.act_ne_zero hx, rfl, rfl, by simpa using List.find?_some hf⟩

theorem find_comp_name_cases (h : Shape m.arena L) (name : CStr) :
    (m.halpr_find_comp_by_name name = some 0 ∧ ∀ p ∈ (view m L).comps, p.2.name ≠ name) ∨
      ∃ x ∈ L.act .comp, x ≠ 0 ∧ (m.comp x).name = name ∧
        m.halpr_find_comp_by_name name = some x := by
  rcases search_cases (k := .comp) h (by decide) fun x => strcmp (m.comp x).name name = 0 with
    ⟨h₁, h₂⟩ | ⟨x, hx, h0, ht, hs⟩
  · refine .inl ⟨h₁, fun p hp => ?_⟩
    obtain ⟨hx, he⟩ := mem_tab.mp hp
    rw [he]
    simpa [strcmp_eq_zero] using h₂ p.1 hx
  · exact .inr ⟨x, hx, h0, by simpa [strcmp_eq_zero] using ht, hs⟩

theorem name_test (f : Nat → CStr) (name : CStr) :
    (fun x => decide (strcmp (f x) name = 0)) = fun x => decide (f x = name) :=
  funext fun _ => decide_eq_decide.mpr strcmp_eq_zero

theorem find_funct_cases (h : Shape m.arena L) (name : CStr) :
    (m.halpr_find_funct_by_name name = some 0 ∧ (view m L).findFunct name = none) ∨
      ∃ x ∈ L.act .funct, x ≠ 0 ∧ m.halpr_find_funct_by_name name = some x ∧
        (view m L).findFunct name = some (x, m.funct x) ∧ (m.funct x).name = name := by
  have hv : (view m L).findFunct name =
      ((L.act .funct).find? fun x => strcmp (m.funct x).name name = 0).map
        fun x => (x, m.funct x) := by
    rw [name_test]
    simp [Registry.findFunct, view, tab, List.find?_map, Function.comp_def]
  rw [Segment.halpr_find_funct_by_name, search_eq h (by decide), hv]
  rcases hf : (L.act .funct).find? fun x => strcmp (m.funct x).name name = 0 with _ | x
  · exact .inl ⟨rfl, rfl⟩
  · have hx := List.mem_of_find?_eq_some hf
    exact .inr ⟨x, hx, h.act_ne_zero hx, rfl, rfl,
      by simpa [strcmp_eq_zero] using List.find?_some hf⟩

theorem find_thread_cases (h : Shape m.arena L) (name : CStr) :
    (m.halpr_find_thread_by_name name = some 0 ∧ (view m L).findThread name = none) ∨
      ∃ x ∈ L.act .thread, x ≠ 0 ∧ m.halpr_find_thread_by_name name = some x ∧
        (view m L).findThread name = some (slot m L x) ∧ (m.thread x).name = name := by
  have hv : (view m L).findThread name =
      ((L.act .thread).find? fun x => strcmp (m.thread x).name name = 0).map (slot m L) := by
    rw [name_test]
    simp only [Registry.findThread, view, List.find?_map, Function.comp_def]
    rfl
  rw [Segment.halpr_find_thread_by_name, search_eq h (by decide), hv]
  rcases hf : (L.act .thread).find? fun x => strcmp (m.thread x).name name = 0 with _ | x
  · exact .inl ⟨rfl, rfl⟩
  · have hx := List.mem_of_find?_eq_some hf
    exact .inr ⟨x, hx, h.act_ne_zero hx, rfl, rfl,
      by simpa [strcmp_eq_zero] using List.find?_some hf⟩

/-- The cursor walk of `hal_exit` and `hal_thread_delete`. -/
theorem seek_cases (h : Shape m.arena L) (hk : k ≠ .entry) (test : Nat → Bool) :
    (∃ prev, (m.arena.pool k).seek test FUEL .root = some prev ∧
        (m.arena.pool k).deref prev = 0 ∧ ∀ x ∈ L.act k, test x = false) ∨
      ∃ xs x ys, L.act k = xs ++ x :: ys ∧ x ≠ 0 ∧ test x = true ∧ (∀ z ∈ xs, test z = false) ∧
        (m.arena.pool k).seek test FUEL .root = some (Link.of xs) ∧
        (m.arena.pool k).deref (Link.of xs) = x := by
  have hu := (h.rep k).used
  have hs := Pool.Rep.seek (show Chain _ _ ([] ++ L.act k) from hu) test (h.short hk)
  rw [Link.of_nil, List.nil_append] at hs
  have hsplit : (L.act k).takeWhile (fun y => !test y) ++ (L.act k).dropWhile (fun y => !test y) =
      L.act k := List.takeWhile_append_dropWhile
  have hd : (m.arena.pool k).deref (Link.of ((L.act k).takeWhile fun y => !test y)) =
      ((L.act k).dropWhile fun y => !test y).headD 0 :=
    Pool.Rep.deref_of (by rw [hsplit]; exact hu)
  rcases hl : (L.act k).dropWhile (fun y => !test y) with _ | ⟨x, ys⟩
  · rw [hl] at hd
    refine .inl ⟨_, hs, hd, fun x hx => ?_⟩
    simpa using List.dropWhile_eq_nil_iff.mp hl x hx
  · rw [hl] at hd hsplit
    have ht : test x = true := by
      have := List.head_dropWhile_not (fun y => !test y) (l := L.act k) (by simp [hl])
      simpa [hl] using this
    exact .inr ⟨_, x, ys, hsplit.symm, h.act_ne_zero (by rw [← hsplit]; simp), ht,
      fun z hz => by simpa using List.mem_takeWhile_imp hz, hs, hd⟩

end

/-! ### Sorted insertion -/

/-- The order of structures by name. -/
abbrev OffLt (name : Nat → CStr) (y z : Nat) : Prop := strcmp (name y) (name z) < 0

theorem insert_sorted_cases {m : Segment} {L : Lists} {k : Kind} {x : Nat} {hs : List Nat}
    (h : Shape m.arena L) (hk : k ≠ .entry) (hh : L.hand k = x :: hs) (name : Nat → CStr)
    (hsort : (L.act k).Pairwise (OffLt name)) :
    ((∃ y ∈ L.act k, name y = name x) ∧ m.insert_sorted k name x = some (false, m)) ∨
      ((∀ y ∈ L.act k, name y ≠ name x) ∧
        ∃ a, m.insert_sorted k name x = some (true, { m with arena := a }) ∧ Grown m.arena a ∧
          Shape a (L.put k (enter (OffLt name) x (L.act k)))) := by
  have hu := (h.rep k).used
  have hstop : (fun y => !(decide (0 ≤ strcmp (name y) (name x)))) =
      fun y => decide (OffLt name y x) := by
    funext y
    rw [← decide_not]
    exact decide_eq_decide.mpr Int.not_le
  have hseek := Pool.Rep.seek (show Chain _ _ ([] ++ L.act k) from hu)
    (fun y => 0 ≤ strcmp (name y) (name x)) (h.short hk)
  rw [Link.of_nil, List.nil_append, hstop] at hseek
  have hsplit : (L.act k).takeWhile (fun y => decide (OffLt name y x)) ++
      (L.act k).dropWhile (fun y => decide (OffLt name y x)) = L.act k :=
    List.takeWhile_append_dropWhile
  set xs := (L.act k).takeWhile fun y => decide (OffLt name y x) with hxs
  have hd : (m.arena.pool k).deref (Link.of xs) =
      ((L.act k).dropWhile fun y => decide (OffLt name y x)).headD 0 :=
    Pool.Rep.deref_of (by rw [hsplit]; exact hu)
  have hlt : ∀ y ∈ xs, OffLt name y x := fun y hy => by
    simpa using List.mem_takeWhile_imp hy
  have hins : ∀ ys, L.act k = xs ++ ys →
      Shape (m.arena.setPool k ((m.arena.pool k).insertAt (Link.of xs) x))
        (L.put k (xs ++ x :: ys)) := fun ys hys => h.put hk hh hys
  rcases hl : (L.act k).dropWhile (fun y => decide (OffLt name y x)) with _ | ⟨z, zs⟩
  · -- every name is smaller
    rw [hl] at hd hsplit
    refine .inr ⟨fun y hy e => ?_,
      m.arena.setPool k ((m.arena.pool k).insertAt (Link.of xs) x), ?_, .of_eq rfl rfl, ?_⟩
    · have hy' : y ∈ xs := by rw [← hsplit] at hy; simpa using hy
      have := hlt y hy'
      rw [OffLt, e, strcmp_self] at this
      omega
    · have hd0 : (m.arena.pool k).deref (Link.of xs) = 0 := hd
      rw [Segment.insert_sorted, hseek]
      simp [hd0, Segment.onArena]
    · rw [enter, hl]
      exact hins [] hsplit.symm
  · rw [hl] at hd hsplit
    have hz0 : z ≠ 0 := h.act_ne_zero (k := k) (by rw [← hsplit]; simp)
    have hzx : ¬ OffLt name z x := by
      have := List.head_dropWhile_not (fun y => decide (OffLt name y x)) (l := L.act k) (by simp [hl])
      simpa [hl] using this
    have hdz : (m.arena.pool k).deref (Link.of xs) = z := hd
    by_cases he : strcmp (name z) (name x) = 0
    · refine .inl ⟨⟨z, by rw [← hsplit]; simp, strcmp_eq_zero.mp he⟩, ?_⟩
      rw [Segment.insert_sorted, hseek]
      simp [hdz, hz0, he]
    · -- `z` is larger, and what follows it is larger still
      have hgt : OffLt name x z := by
        have := strcmp_swap (name x) (name z)
        unfold OffLt at hzx ⊢
        omega
      refine .inr ⟨fun y hy e => ?_,
      m.arena.setPool k ((m.arena.pool k).insertAt (Link.of xs) x), ?_, .of_eq rfl rfl, ?_⟩
      · have hs' : (xs ++ z :: zs).Pairwise (OffLt name) := by rw [hsplit]; exact hsort
        rw [← hsplit] at hy
        rcases List.mem_append.mp hy with hy | hy
        · have := hlt y hy
          rw [OffLt, e, strcmp_self] at this
          omega
        · have hyz : y = z ∨ OffLt name z y := by
            rcases List.mem_cons.mp hy with rfl | hy
            · exact .inl rfl
            · exact .inr ((List.pairwise_cons.mp (List.pairwise_append.mp hs').2.1).1 y hy)
          have hxy : OffLt name x y := by
            rcases hyz with rfl | hyz
            · exact hgt
            · exact strcmp_trans hgt hyz
          rw [OffLt, e, strcmp_self] at hxy
          omega
      · rw [Segment.insert_sorted, hseek]
        simp [hdz, hz0, he, Segment.onArena]
      · rw [enter, hl]
        exact hins (z :: zs) hsplit.symm

/-- A table after the insertion of a new structure. -/
theorem tab_enter {α : Type} {f : Nat → α} {name : α → CStr} {x : Nat} {a : α} {xs : List Nat}
    (hx : x ∉ xs) :
    tab (Function.update f x a) (enter (OffLt fun y => name (Function.update f x a y)) x xs) =
      enter (NameLt name) (x, a) (tab f xs) := by
  have h : tab (Function.update f x a)
        (enter (OffLt fun y => name (Function.update f x a y)) x xs) =
      enter (NameLt name) (x, Function.update f x a x) (tab (Function.update f x a) xs) :=
    enter_map fun y _ => Iff.rfl
  rwa [Function.update_self, tab_update hx] at h

theorem sorted_tab {α : Type} {f : Nat → α} {name : α → CStr} {xs : List Nat} :
    (tab f xs).Pairwise (NameLt name) ↔ xs.Pairwise (OffLt fun x => name (f x)) :=
  List.pairwise_map

/-- Writing a structure that is not in use keeps the order of those that are. -/
theorem sorted_update {α : Type} {f : Nat → α} {name : α → CStr} {xs : List Nat} {x : Nat} {a : α}
    (hx : x ∉ xs) (h : xs.Pairwise (OffLt fun y => name (f y))) :
    xs.Pairwise (OffLt fun y => name (Function.update f x a y)) := by
  have := sorted_tab.mpr h
  rw [← tab_update hx (a := a)] at this
  exact sorted_tab.mp this

/-! ### Opening and closing an operation -/

variable {σ : Type}

theorem Orderly.cons {locks : List LockEvent} {e : LockEvent} (h : Orderly locks)
    (he : e = .get false ∨ e = .give true) : Orderly (e :: locks) := by
  intro e' he'
  rcases List.mem_cons.mp he' with rfl | he'
  · exact he
  · exact h e' he'

/-- The state of an operation that has taken the mutex, with the segment `m`. -/
def opened (s : State σ) (m : Segment) : State σ :=
  { s with shm := m, locks := .get false :: s.locks }

@[simp] theorem opened_base (s : State σ) (m : Segment) :
    (opened s m).hal_shmem_base = s.hal_shmem_base := rfl

@[simp] theorem opened_module (s : State σ) (m : Segment) :
    (opened s m).lib_module_id = s.lib_module_id := rfl

/-- The state with the mutex given, after an operation that left the segment `m`. -/
def closed (s : State σ) (m : Segment) : State σ :=
  { s with shm := { m with mutex := false }, locks := .give true :: .get false :: s.locks }

section
variable {s : State σ} {m : Segment} {E : Stop → State σ → Prop} {α : Type}

theorem wp_open (h : s.hal_data ≠ 0) (hm : s.shm.mutex = false) {Q : Unit → State σ → Prop} :
    Wp (rtapi_mutex_get : Prog σ Unit) s Q E ↔ Q () (opened s { s.shm with mutex := true }) :=
  wp_mutex_get h hm

theorem wp_close (h : m.mutex = true) {Q : Unit → State σ → Prop} :
    Wp (rtapi_mutex_give : Prog σ Unit) (opened s m) Q E ↔ Q () (closed s m) := by
  rw [wp_mutex_give]
  simp only [opened, closed, h]

theorem wp_look_opened {f : Segment → α} {Q : α → State σ → Prop} :
    Wp (look f : Prog σ α) (opened s m) Q E ↔ Q (f m) (opened s m) := Iff.rfl

theorem wp_call_opened {f : σ → α × σ} {Q : α → State σ → Prop} :
    Wp (call f : Prog σ α) (opened s m) Q E ↔
      Q (f s.rt).1 (opened { s with rt := (f s.rt).2 } m) := Iff.rfl

theorem wp_change_opened {f : Segment → Segment} {Q : Unit → State σ → Prop} :
    Wp (change f : Prog σ Unit) (opened s m) Q E ↔ Q () (opened s (f m)) := Iff.rfl

/-- The same, with the segment afterwards spelled out. -/
theorem wp_change_to {f : Segment → Segment} (m' : Segment) (h : f m = m')
    {Q : Unit → State σ → Prop} (hq : Q () (opened s m')) :
    Wp (change f : Prog σ Unit) (opened s m) Q E := by
  subst h
  exact hq

theorem wp_take_opened {f : Segment → α × Segment} {Q : α → State σ → Prop} :
    Wp (take f : Prog σ α) (opened s m) Q E ↔ Q (f m).1 (opened s (f m).2) := Iff.rfl

theorem wp_walk_opened {f : Segment → Option α} {a : α} (h : f m = some a)
    {Q : α → State σ → Prop} : Wp (walk f : Prog σ α) (opened s m) Q E ↔ Q a (opened s m) :=
  wp_walk h

theorem wp_walkTo_opened {f : Segment → Option (α × Segment)} {a : α} {m' : Segment}
    (h : f m = some (a, m')) {Q : α → State σ → Prop} :
    Wp (walkTo f : Prog σ α) (opened s m) Q E ↔ Q a (opened s m') :=
  wp_walkTo h

end

theorem Moved.closed {s : State σ} {L L' : Lists} {evs : List Event} {m : Segment} (h : Inv s L)
    (hg : Good m L') (hi : Idle L') (hv : view m L' = (view s.shm L).applyAll evs)
    (hlock : m.lock = s.shm.lock) (hstate : m.state = s.shm.state) :
    Moved s L evs (Hal.closed s m) L' where
  inv :=
    { good := ⟨hg.shape, hg.sound, hg.plain⟩
      idle := hi
      unlocked := rfl
      attached := h.attached
      mem_id := h.mem_id
      orderly := (h.orderly.cons (.inl rfl)).cons (.inr rfl) }
  events := hv
  base := rfl
  module := rfl
  lock := hlock
  state := hstate

/-- Inside an operation that has only taken the mutex. -/
theorem Inv.locked {s : State σ} {L : Lists} (h : Inv s L) :
    Good { s.shm with mutex := true } L :=
  ⟨h.good.shape, h.good.sound, h.good.plain⟩

/-- No task was touched and no function called, and memory was only taken. -/
structure Quiet (s s' : State σ) : Prop where
  grown : Grown s.shm.arena s'.shm.arena
  strikes : s'.strikes = s.strikes
  calls : s'.calls = s.calls

/-- Besides the segment and the mutex nothing changed. -/
structure Still (s s' : State σ) : Prop extends Quiet s s' where
  rt : s'.rt = s.rt
  ref_cnt : s'.ref_cnt = s.ref_cnt

theorem Quiet.refl (s : State σ) : Quiet s s := ⟨.refl _, rfl, rfl⟩

theorem Quiet.trans {s s' s'' : State σ} (h : Quiet s s') (h' : Quiet s' s'') : Quiet s s'' :=
  ⟨h.grown.trans h'.grown, h'.strikes.trans h.strikes, h'.calls.trans h.calls⟩

theorem Still.refl (s : State σ) : Still s s := ⟨.refl s, rfl, rfl⟩

theorem Still.trans {s s' s'' : State σ} (h : Still s s') (h' : Still s' s'') : Still s s'' :=
  ⟨h.toQuiet.trans h'.toQuiet, h'.rt.trans h.rt, h'.ref_cnt.trans h.ref_cnt⟩

/-- The operation returned the code and went through the events of `spec`, and did nothing
else. -/
def Refines (s : State σ) (L : Lists) (spec : Int × List Event) (r : Int) (s' : State σ) : Prop :=
  r = spec.1 ∧ ∃ L', Moved s L spec.2 s' L' ∧ Still s s'

namespace Refines

variable {s : State σ} {L L' : Lists} {spec : Int × List Event} {r : Int} {evs : List Event}
  {m : Segment}

/-- Refused before the mutex was taken. -/
theorem same (h : Inv s L) (hs : spec = (r, [])) : Refines s L spec r s := by
  rw [hs]
  exact ⟨rfl, L, .refl h, .refl s⟩

theorem done (h : Inv s L) (hs : spec = (r, evs)) (hg : Good m L') (hi : Idle L')
    (hv : view m L' = (view s.shm L).applyAll evs)
    (hlock : m.lock = s.shm.lock) (hstate : m.state = s.shm.state)
    (hgrown : Grown s.shm.arena m.arena) : Refines s L spec r (closed s m) := by
  rw [hs]
  exact ⟨rfl, L', .closed h hg hi hv hlock hstate, ⟨hgrown, rfl, rfl⟩, rfl, rfl⟩

/-- Refused with the mutex. -/
theorem refused (h : Inv s L) (hs : spec = (r, [])) :
    Refines s L spec r (closed s { s.shm with mutex := true }) :=
  done h hs h.locked h.idle rfl rfl rfl (.refl _)

end Refines

/-- `Good` of a segment that differs in nothing registered. -/
theorem Good.same {m m' : Segment} {L L' : Lists} (h : Good m L) (hs : Same m L m' L')
    (hshape : Shape m'.arena L') (hplain : Plain m') : Good m' L' :=
  ⟨hshape, by rw [hs.view_eq]; exact h.sound, hplain⟩

theorem Idle.grab_put {L : Lists} (h : Idle L) (k : Kind) (x : Nat) (xs : List Nat) :
    Idle ((L.grab k x).put k xs) := by
  intro k'
  by_cases hk : k' = k
  · subst hk; simp [Lists.put, Lists.grab, h k']
  · simp [Lists.put, Lists.grab, h k']

theorem Idle.grab_drop {L : Lists} (h : Idle L) (k : Kind) (x : Nat) :
    Idle ((L.grab k x).drop k x) := by
  intro k'
  by_cases hk : k' = k
  · subst hk; simp [Lists.drop, Lists.grab, h k']
  · simp [Lists.drop, Lists.grab, h k']

theorem Idle.grab_hand {L : Lists} (h : Idle L) (k : Kind) (x : Nat) :
    (L.grab k x).hand k = [x] := by
  simp [Lists.grab, h k]

/-- Allocation: no structure, or one in hand. -/
theorem Shape.alloc_or {a : Arena} {L : Lists} {k : Kind} (h : Shape a L) (hk : k ≠ .entry)
    (hkt : k ≠ .thread) :
    a.alloc k = (0, a) ∨
      ∃ x a', a.alloc k = (x, a') ∧ x ≠ 0 ∧ Grown a a' ∧ Shape a' (L.grab k x) := by
  by_cases hf : a.Full k
  · exact .inl (Shape.alloc_full hf)
  · obtain ⟨h₁, h₂⟩ := h.alloc hk hkt hf
    exact .inr ⟨_, _, rfl, h₁, .alloc h k, h₂⟩

/-- A structure that was just taken in hand is not in use. -/
theorem Shape.grab_fresh {a : Arena} {L : Lists} {k : Kind} {x : Nat} (h : Shape a (L.grab k x))
    (hk : k ≠ .entry) : x ∉ L.act k := by
  have hh : (L.grab k x).hand k = x :: L.hand k := by simp [Lists.grab]
  exact fun hm => h.hand_fresh hk hh (List.mem_append_left _ hm)

end RTS.Hal

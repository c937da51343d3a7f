import RealTimeSystem.System.Exporting

/-!
# System — `hal_export_functf`

`hal_pin_newf` expands its format and hands the text to `hal_pin_new`.  `hal_export_functf` should
do the same for a function, but never expands the format: the length it tests and the name it hands
on are what the stack holds.

* `refusal` — the code with which `hal_export_funct` refuses a name, if it registers nothing.
* `hal_export_funct_outcome` — what a call comes to: a refusal, or a function under the name.
* **`hal_export_functf_agrees_iff`** — the formatted call agrees with the plain one if and only if
  the stack holds the text and a fitting length, or both calls are refused with one code.
-/

namespace RTS.Hal

open RTS.Support RTS.Uspace

variable {σ : Type} {R : Rtapi σ} {s s' : State σ} {L L' : Lists}

/-! ### Refusals -/

/-- The first check of `hal_export_funct` that the name does not pass; `none` where the function is
registered. -/
def refusal (s : State σ) (name : CStr) (comp_id : Int) : Option Int :=
  if s.hal_data = 0 then some (-EINVAL)
  else if name.length > HAL_NAME_LEN then some (-EINVAL)
  else if s.shm.lock &&& HAL_LOCK_LOAD ≠ 0 then some (-EPERM)
  else
    let comp := (s.shm.halpr_find_comp_by_id comp_id).getD 0
    if comp = 0 then some (-EINVAL)
    else if (s.shm.comp comp).type = .user then some (-EINVAL)
    else if (s.shm.comp comp).ready ≠ 0 then some (-EINVAL)
    else if (s.shm.arena.alloc .funct).1 = 0 then some (-ENOMEM)
    else if s.shm.halpr_find_funct_by_name name ≠ some 0 then some (-EINVAL)
    else none

theorem funct_taken_iff {m : Segment} (h : Shape m.arena L) (name : CStr) :
    m.halpr_find_funct_by_name name ≠ some 0 ↔ ∃ p ∈ (view m L).functs, p.2.name = name := by
  rcases find_funct_cases h name with ⟨hf, hv⟩ | ⟨x, hx, h0, hf, -, hn⟩
  · rw [hf]
    refine ⟨fun hne => absurd rfl hne, fun ⟨p, hp, e⟩ => ?_⟩
    exact absurd e (by simpa using List.find?_eq_none.mp hv p hp)
  · rw [hf]
    refine ⟨fun _ => ⟨(x, m.funct x), mem_tab.mpr ⟨hx, rfl⟩, hn⟩, fun _ e => ?_⟩
    exact h0 (Option.some.inj e)

/-- What is refused is refused by the abstract operation, with the same code. -/
theorem refusal_eq (h : Inv s L) (name : CStr) (funct arg : Addr)
    (uses_fp reentrant comp_id : Int) {code : Int}
    (hcode : ((view s.shm L).export_funct s.shm.lock (new_funct s) name funct arg uses_fp reentrant
      comp_id).1 = code) : refusal s name comp_id = if code = 0 then none else some code := by
  have hE : -EINVAL ≠ 0 := by decide
  have hP : -EPERM ≠ 0 := by decide
  have hM : -ENOMEM ≠ 0 := by decide
  subst hcode
  unfold refusal Registry.export_funct
  rw [if_neg h.attached]
  by_cases hn : name.length > HAL_NAME_LEN
  · rw [if_pos hn, if_pos hn, if_neg hE]
  rw [if_neg hn, if_neg hn]
  by_cases hl : s.shm.lock &&& HAL_LOCK_LOAD ≠ 0
  · rw [if_pos hl, if_pos hl, if_neg hP]
  rw [if_neg hl, if_neg hl]
  rcases find_comp_cases h.good.shape comp_id with ⟨hf, hv⟩ | ⟨c, -, hc0, hf, hv, -⟩
  · simp only [hf, hv, Option.getD_some, if_true, if_neg hE]
  simp only [hf, hv, Option.getD_some, if_neg hc0]
  by_cases ht : (s.shm.comp c).type = .user
  · simp only [if_pos ht, if_neg hE]
  simp only [if_neg ht]
  by_cases hr : (s.shm.comp c).ready ≠ 0
  · simp only [if_pos hr, if_neg hE]
  simp only [if_neg hr]
  by_cases h0 : new_funct s = 0
  · have h0' : (s.shm.arena.alloc .funct).1 = 0 := h0
    simp only [if_pos h0, if_pos h0', if_neg hM]
  have h0' : ¬ (s.shm.arena.alloc .funct).1 = 0 := h0
  have htaken := funct_taken_iff h.good.shape name
  rw [rt_snprintf_short hn]
  simp only [if_neg h0, if_neg h0', htaken]
  by_cases hdup : ∃ p ∈ (view s.shm L).functs, p.2.name = name
  · simp only [if_pos hdup, if_neg hE]
  · simp only [if_neg hdup, if_true]

/-! ### Registries -/

theorem Slot.eq_of {t t' : Slot} (hoff : t'.off = t.off) (hthread : t'.thread = t.thread)
    (hentries : t'.entries = t.entries) : t' = t := by
  rcases t with ⟨off, thread, entries⟩
  rcases t' with ⟨off', thread', entries'⟩
  obtain rfl : off' = off := hoff
  obtain rfl : thread' = thread := hthread
  obtain rfl : entries' = entries := hentries
  rfl

/-- The entries of a thread are those on its ring. -/
theorem Segment.Holds.entries_unique {m : Segment} {g g' : Registry} (h : m.Holds g)
    (h' : m.Holds g') {t t' : Slot} (ht : t ∈ g.threads) (ht' : t' ∈ g'.threads)
    (hoff : t'.off = t.off) : t'.entries = t.entries := by
  obtain ⟨hring, hnot, hrec⟩ := h.rings t ht
  obtain ⟨hring', hnot', hrec'⟩ := h'.rings t' ht'
  rw [hoff] at hring' hnot'
  have hkeys : keys t'.entries = keys t.entries := Arc.unique hring' hring hnot' hnot
  refine List.ext_getElem (by simpa [keys] using congrArg List.length hkeys) fun i hi hi' => ?_
  have hkey : (t'.entries[i]).1 = (t.entries[i]).1 := by
    have := List.getElem_of_eq hkeys (i := i) (by simpa [keys] using hi)
    simpa [keys] using this
  exact Prod.ext hkey (by rw [hrec' _ (List.getElem_mem hi), hrec _ (List.getElem_mem hi'), hkey])

/-- The lists of a segment hold one registry. -/
theorem Segment.Holds.unique {m : Segment} {g g' : Registry} (h : m.Holds g) (h' : m.Holds g') :
    g' = g := by
  have hthreads : g'.threads = g.threads := by
    have hmap := h.threads.unique h'.threads
    refine List.ext_getElem (by simpa using congrArg List.length hmap) fun i hi hi' => ?_
    have hslot : ((g'.threads[i]).off, (g'.threads[i]).thread) =
        ((g.threads[i]).off, (g.threads[i]).thread) := by
      have := List.getElem_of_eq hmap (i := i) (by simpa using hi)
      simpa using this
    obtain ⟨hoff, hthread⟩ := Prod.mk.inj hslot
    exact Slot.eq_of hoff hthread
      (h.entries_unique h' (List.getElem_mem hi') (List.getElem_mem hi) hoff)
  rcases g with ⟨comps, pins, params, functs, threads⟩
  rcases g' with ⟨comps', pins', params', functs', threads'⟩
  obtain rfl : comps' = comps := h.comps.unique h'.comps
  obtain rfl : pins' = pins := h.pins.unique h'.pins
  obtain rfl : params' = params := h.params.unique h'.params
  obtain rfl : functs' = functs := h.functs.unique h'.functs
  obtain rfl : threads' = threads := hthreads
  rfl

/-- The same lists of components, pins, parameters, functions and threads, with the same records. -/
def SameRegistries (m m' : Segment) : Prop := ∀ g, m.Holds g ↔ m'.Holds g

theorem SameRegistries.refl (m : Segment) : SameRegistries m m := fun _ => Iff.rfl

theorem SameRegistries.symm {m m' : Segment} (h : SameRegistries m m') : SameRegistries m' m :=
  fun g => (h g).symm

theorem SameRegistries.trans {m m' m'' : Segment} (h : SameRegistries m m')
    (h' : SameRegistries m' m'') : SameRegistries m m'' := fun g => (h g).trans (h' g)

theorem SameRegistries.of_view {m m' : Segment} (h : Shape m.arena L) (h' : Shape m'.arena L')
    (hv : view m' L' = view m L) : SameRegistries m m' := fun g => by
  constructor
  · intro hg
    rw [h.holds.unique hg, ← hv]
    exact h'.holds
  · intro hg
    rw [h'.holds.unique hg, hv]
    exact h.holds

/-! ### What a call comes to -/

/-- The outcomes of `hal_export_funct`: a refusal that registers nothing, or a function. -/
inductive Outcome (s : State σ) (name : CStr) (comp_id : Int) : Int → State σ → Prop
  | refused {e : Int} {s' : State σ} : refusal s name comp_id = some e →
      SameRegistries s.shm s'.shm → Outcome s name comp_id e s'
  | registered {r : Int} {s' : State σ} {g g' : Registry} {f : Funct} :
      refusal s name comp_id = none → s.shm.Holds g → new_funct s ∉ keys g.functs →
      s'.shm.Holds g' → (new_funct s, f) ∈ g'.functs → f.name = name → Outcome s name comp_id r s'

theorem Moved.same_registries (h : Inv s L) (hm : Moved s L [] s' L') :
    SameRegistries s.shm s'.shm :=
  .of_view h.good.shape hm.inv.good.shape hm.events

/-- The pin and the parameters of a function leave the functions alone. -/
theorem export_funct_pins_functs (h : Inv s L) {comp_id : Int} {c : Nat} {comp : Comp}
    (hf : (view s.shm L).findComp comp_id = some (c, comp)) (hr : comp.ready = 0)
    (hl : ¬ s.shm.lock &&& HAL_LOCK_LOAD ≠ 0) (name : CStr) {new : Nat} (hnew : new ∈ L.act .funct) :
    Returns (export_funct_pins name new comp_id) s fun _ s' =>
      ∃ L', Inv s' L' ∧ (view s'.shm L').functs = (view s.shm L).functs := by
  refine (export_funct_pins_found h hf hr hl name hnew).mono fun _ s' hs' => ?_
  rcases hs' with ⟨-, -, L', hm⟩ | ⟨-, -, x, p, evs₁, evs₂, L', hm, -, -, -, hg⟩
  · exact ⟨L', hm.inv, by rw [hm.events]; rfl⟩
  · refine ⟨L', hm.inv, ?_⟩
    rw [hm.events, Registry.applyAll_cons, Registry.applyAll_append]
    exact hg.keeps Registry.functs (fun _ _ _ => rfl) _

theorem Inv.export_outcome (h : Inv s L) (name : CStr) (funct arg : Addr)
    (uses_fp reentrant comp_id : Int) :
    Returns (hal_export_funct name funct arg uses_fp reentrant comp_id) s
      (Outcome s name comp_id) := by
  have hrefusal := refusal_eq h name funct arg uses_fp reentrant comp_id rfl
  unfold hal_export_funct
  simp only [returns_bind, returns_get]
  refine .ite (fun h₀ => absurd h₀ h.attached) fun _ => ?_
  refine .ite (fun hn => .refused ?_ (.refl _)) fun hn => ?_
  · rw [hrefusal, Registry.export_funct, if_pos hn]
    rfl
  refine .ite (fun hl => .refused ?_ (.refl _)) fun hl => ?_
  · rw [hrefusal, Registry.export_funct, if_neg hn, if_pos hl]
    rfl
  rw [returns_bind]
  refine (export_funct_new_made h hn hl funct arg uses_fp reentrant comp_id).mono
    fun made s₁ hmade => ?_
  cases hmade with
  | refused _ he hspec hm _ =>
      refine .refused ?_ (hm.same_registries h)
      rw [hrefusal, hspec, if_neg he]
  | @listed c f _ L₁ hpub hfound hname _ hspec hm _ _ =>
      have hnone : refusal s name comp_id = none := by
        rw [hrefusal, hspec, if_pos rfl]
      have hfound₁ : (view s₁.shm L₁).findComp comp_id = some (c, s.shm.comp c) := by
        rw [hm.events]
        exact hfound
      have hfresh : new_funct s ∉ L.act .funct :=
        (h.good.shape.alloc (by decide) (by decide) hpub.room).2.grab_fresh (by decide)
      refine (export_funct_pins_functs hm.inv hfound₁ hpub.unready (hm.lock.symm ▸ hl) name
        hm.added_funct).mono fun r s₂ hpost => ?_
      obtain ⟨L₂, h₂, hfuncts⟩ := hpost
      have hkeys : new_funct s ∉ keys (view s.shm L).functs := by
        rw [show (view s.shm L).functs = tab s.shm.funct (L.act .funct) from rfl, keys_tab]
        exact hfresh
      refine .registered hnone h.good.shape.holds hkeys h₂.good.shape.holds ?_
        (hname.trans (rt_snprintf_short hn))
      rw [hfuncts, hm.events]
      exact mem_enter.mpr (.inl rfl)

/-- **What a call comes to**, whether HAL is up or not. -/
theorem hal_export_funct_outcome (h : s.hal_data = 0 ∨ Reachable R s) (name : CStr)
    (funct arg : Addr) (uses_fp reentrant comp_id : Int) :
    Returns (hal_export_funct name funct arg uses_fp reentrant comp_id) s
      (Outcome s name comp_id) := by
  rcases h with h₀ | h
  · unfold hal_export_funct
    simp only [returns_bind, returns_get]
    refine .ite (fun _ => .refused ?_ (.refl _)) fun hup => absurd h₀ hup
    rw [refusal, if_pos h₀]
  · obtain ⟨L, hinv⟩ := h.inv
    exact hinv.export_outcome name funct arg uses_fp reentrant comp_id

/-! ### The formatted call -/

/-- The test of `hal_export_functfv` on the length that it finds. -/
def Garbage.Rejected (stack : Garbage) : Prop := stack.sz = -1 ∨ stack.sz > HAL_NAME_LEN

instance (stack : Garbage) : Decidable stack.Rejected := inferInstanceAs (Decidable (_ ∨ _))

/-- The code with which the call with this stack is refused. -/
def Garbage.refusal (stack : Garbage) (s : State σ) (comp_id : Int) : Option Int :=
  if stack.Rejected then some (-ENOMEM) else Hal.refusal s stack.name comp_id

/-- The code with which a call for the text should be refused. -/
def text_refusal (s : State σ) (full : CStr) (comp_id : Int) : Option Int :=
  if full.length > HAL_NAME_LEN then some (-ENOMEM) else refusal s full comp_id

/-- The formatted call does what the plain call does with the text, or refuses one that is too
long. -/
def FormattedAgrees (s : State σ) (stack : Garbage) (funct arg : Addr)
    (uses_fp reentrant comp_id : Int) (full : CStr) : Prop :=
  ∃ r s', hal_export_functf stack funct arg uses_fp reentrant comp_id full s = .ok r s' ∧
    if full.length > HAL_NAME_LEN then r = -ENOMEM ∧ SameRegistries s.shm s'.shm
    else ∃ s'', hal_export_funct full funct arg uses_fp reentrant comp_id s = .ok r s'' ∧
      SameRegistries s'.shm s''.shm

section
variable {name full : CStr} {comp_id r r' : Int} {s'' : State σ}

/-- A function that was registered is new. -/
theorem Outcome.refused_of_same (ho : Outcome s name comp_id r s')
    (hs : SameRegistries s.shm s'.shm) : refusal s name comp_id = some r := by
  cases ho with
  | refused he _ => exact he
  | registered _ hg hnew hg' hf _ =>
      have hsame := ((hs _).mp hg).unique hg'
      rw [hsame] at hf
      exact absurd (List.mem_map_of_mem hf) hnew

/-- Functions that were registered under two names differ. -/
theorem Outcome.eq_of_same (ho : Outcome s name comp_id r s') (ho' : Outcome s full comp_id r' s'')
    (hs : SameRegistries s'.shm s''.shm) :
    name = full ∨ refusal s name comp_id = some r ∧ refusal s full comp_id = some r' := by
  have hcopy := ho
  cases ho with
  | refused he hsame => exact .inr ⟨he, ho'.refused_of_same (hsame.trans hs)⟩
  | registered _ _ _ hg hf hname =>
      cases ho' with
      | refused he' hsame' => exact .inr ⟨hcopy.refused_of_same (hsame'.trans hs.symm), he'⟩
      | registered _ _ _ hg' hf' hname' =>
          have hsame := ((hs _).mp hg).unique hg'
          rw [hsame] at hf'
          have hrec := (hg.functs.2 _ hf).trans (hg.functs.2 _ hf').symm
          exact .inl (hname.symm.trans ((congrArg Funct.name hrec).trans hname'))

theorem Outcome.refused_of_refusal (ho : Outcome s name comp_id r s')
    (he : refusal s name comp_id = some r') : r = r' ∧ SameRegistries s.shm s'.shm := by
  cases ho with
  | refused he' hs => exact ⟨Option.some.inj (he'.symm.trans he), hs⟩
  | registered hnone _ _ _ _ _ => exact absurd (hnone.symm.trans he) nofun

end

section
variable {stack : Garbage} {funct arg : Addr} {uses_fp reentrant comp_id : Int} {full : CStr}

/-- The formatted call is refused, or it is the plain call for what the stack holds. -/
theorem hal_export_functf_eq :
    (hal_export_functf stack funct arg uses_fp reentrant comp_id full : Prog σ Int) =
      if stack.Rejected then pure (-ENOMEM)
      else hal_export_funct stack.name funct arg uses_fp reentrant comp_id := rfl

/-- **When the formatted call agrees with the plain one.** -/
theorem hal_export_functf_agrees_iff (h : s.hal_data = 0 ∨ Reachable R s) (stack : Garbage)
    (funct arg : Addr) (uses_fp reentrant comp_id : Int) (full : CStr) :
    FormattedAgrees s stack funct arg uses_fp reentrant comp_id full ↔
      (¬ stack.Rejected ∧ ¬ full.length > HAL_NAME_LEN ∧ stack.name = full) ∨
        ∃ e, stack.refusal s comp_id = some e ∧ text_refusal s full comp_id = some e := by
  obtain ⟨r, s', hrun, ho⟩ := (hal_export_funct_outcome h stack.name funct arg uses_fp reentrant
    comp_id).exists_ok
  obtain ⟨r', s'', hrun', ho'⟩ := (hal_export_funct_outcome h full funct arg uses_fp reentrant
    comp_id).exists_ok
  unfold FormattedAgrees Garbage.refusal text_refusal
  rw [hal_export_functf_eq]
  by_cases hrej : stack.Rejected <;> by_cases hlong : full.length > HAL_NAME_LEN <;>
    simp only [hrej, hlong, if_true, if_false, not_true_eq_false, not_false_eq_true, false_and,
      true_and, false_or]
  · exact iff_of_true ⟨_, s, rfl, rfl, .refl _⟩ ⟨_, rfl, rfl⟩
  · -- the stack is refused: so has to be the text
    constructor
    · rintro ⟨_, _, hpure, s₁, hrun₁, hsame⟩
      cases hpure
      rw [hrun'] at hrun₁
      cases hrun₁
      exact ⟨_, rfl, ho'.refused_of_same hsame⟩
    · rintro ⟨_, hcode, he⟩
      obtain rfl := Option.some.inj hcode
      obtain ⟨rfl, hsame⟩ := ho'.refused_of_refusal he
      exact ⟨_, s, rfl, s'', hrun', hsame⟩
  · -- the text is refused: so has to be what the stack holds
    constructor
    · rintro ⟨_, s₁, hrun₁, rfl, hsame⟩
      rw [hrun] at hrun₁
      cases hrun₁
      exact ⟨_, ho.refused_of_same hsame, rfl⟩
    · rintro ⟨_, he, hcode⟩
      obtain rfl := Option.some.inj hcode
      obtain ⟨rfl, hsame⟩ := ho.refused_of_refusal he
      exact ⟨_, s', hrun, rfl, hsame⟩
  · constructor
    · rintro ⟨_, s₁, hrun₁, s₂, hrun₂, hsame⟩
      rw [hrun] at hrun₁
      cases hrun₁
      rw [hrun'] at hrun₂
      cases hrun₂
      exact (ho.eq_of_same ho' hsame).imp_right fun ⟨he, he'⟩ => ⟨_, he, he'⟩
    · rintro (rfl | ⟨e, he, he'⟩)
      · exact ⟨r, s', hrun, s', hrun, .refl _⟩
      · obtain ⟨rfl, hsame⟩ := ho.refused_of_refusal he
        obtain ⟨rfl, hsame'⟩ := ho'.refused_of_refusal he'
        exact ⟨_, s', hrun, s'', hrun', hsame.symm.trans hsame'⟩

/-- A stack that happens to hold the text, and one that does not. -/
theorem hal_export_functf_agrees_iff_stacks :
    FormattedAgrees loading ⟨1, lit ['f']⟩ 8 16 0 1 2 (lit ['f']) ∧
      ¬ FormattedAgrees loading ⟨0, []⟩ 8 16 0 1 2 (lit ['f']) := by
  constructor
  · exact (hal_export_functf_agrees_iff (.inr loading_reachable) _ 8 16 0 1 2 _).mpr
      (.inl ⟨by decide, by decide, rfl⟩)
  · intro h
    have hnone : Garbage.refusal ⟨0, []⟩ loading 2 = none := by decide +kernel
    rcases (hal_export_functf_agrees_iff (.inr loading_reachable) _ 8 16 0 1 2 _).mp h with
      ⟨-, -, e⟩ | ⟨e, he, -⟩
    · cases e
    · exact absurd (hnone.symm.trans he) nofun

/-- A stack on which the call fails, and one on which it registers another name. -/
theorem garbage_exported :
    (¬ ∀ (s : State Machine) (stack : Garbage) (full : CStr), Reachable (rtapi serving) s →
      FormattedAgrees s stack 8 16 0 1 2 full) ∧
      result (hal_export_functf ⟨0, lit ['x']⟩ 8 16 0 1 2 (lit ['f'])) loading = some 0 ∧
      (after (hal_export_functf ⟨0, lit ['x']⟩ 8 16 0 1 2 (lit ['f']))
        loading).shm.halpr_find_funct_by_name (lit ['f']) = some 0 := by
  refine ⟨fun h => ?_, by decide +kernel, by decide +kernel⟩
  obtain ⟨r, s', hrun, s'', hrun', -⟩ := h loading ⟨-1, []⟩ (lit ['f']) loading_reachable
  have hplain : result (hal_export_funct (lit ['f']) 8 16 0 1 2) loading = some 0 := by
    decide +kernel
  cases hrun
  rw [result_eq hplain] at hrun'
  cases hrun'

end

end RTS.Hal

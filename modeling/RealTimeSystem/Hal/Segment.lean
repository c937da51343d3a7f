import RealTimeSystem.Hal.Alloc
import RealTimeSystem.Support.Pool
import RealTimeSystem.Support.Ring

/-!
# HAL — the shared segment and the functions that work on its lists

The `Arena` is what links the structures together: the allocator, a list in use and a free list
for each kind of structure, and the rings of function entries.  The `Segment` adds the contents.
`carved` is a ghost, the structures that were ever allocated; no function reads it.

The functions below are those of `hal_lib.c` that run with the mutex held and call nothing
outside HAL.  A walk over a list takes a number of steps and returns `none` when they do not
suffice; `FUEL` of them always do (`Shape.lean`).  The alloc, free, search, insert and clean-up
loops of the source are one definition each, applied under the source's names.

A cell of a pin is a pointer in the segment, at the offset a program gives.  The `cell`s and the
`data` are a memory of their own here: a program that gives the address of a field of `hal_data_t` or
of a structure as that of a cell writes over it in the source, and is outside of the model.

`list_init_entry` is declared in `hal_priv.h` and not defined in the repository; it makes the
entry a one-element ring and, as any store, stops the process on a null pointer.
-/

namespace RTS.Hal

open RTS.Support

/-- Steps a walk may take: more than the segment has bytes. -/
def FUEL : Nat := HAL_SIZE + 1

/-! ### Linkage -/

/-- The allocator and the links of all structures. -/
structure Arena where
  brk : Brk := {}
  pool : Kind → Pool := fun _ => .nil
  links : Links := ⟨fun _ => 0, fun _ => 0⟩
  /-- structures ever allocated -/
  carved : Kind → List Nat := fun _ => []

namespace Arena

def setPool (a : Arena) (k : Kind) (p : Pool) : Arena :=
  { a with pool := Function.update a.pool k p }

/-- `x` is a new structure. -/
def carve (a : Arena) (k : Kind) (x : Nat) (brk : Brk) : Arena :=
  { a with brk := brk, carved := Function.update a.carved k (x :: a.carved k) }

/-- There is no idle structure and no memory for a new one. -/
def Full (a : Arena) (k : Kind) : Prop :=
  (a.pool k).free_ptr = 0 ∧ (shmalloc_dn a.brk k.size).1 = none

instance (a : Arena) (k : Kind) : Decidable (a.Full k) := inferInstanceAs (Decidable (_ ∧ _))

/-- A structure from the free list, else a new one; `0` when there is no memory. -/
def alloc (a : Arena) (k : Kind) : Nat × Arena :=
  if (a.pool k).free_ptr ≠ 0 then
    ((a.pool k).free_ptr, a.setPool k (a.pool k).popFree)
  else
    match shmalloc_dn a.brk k.size with
    | (none, _) => (0, a)
    | (some off, brk) =>
        (off.toNat, (a.carve k off.toNat brk).setPool k ((a.pool k).setNext off.toNat 0))

/-- A ring of its own. -/
def list_init_entry (a : Arena) (e : Nat) : Arena := { a with links := a.links.init e }

/-- An entry behind `p`. -/
def list_add_after (a : Arena) (e p : Nat) : Arena := { a with links := a.links.addAfter e p }

/-- An entry leaves its ring. -/
def list_remove_entry (a : Arena) (e : Nat) : Arena := { a with links := a.links.remove e }

/-- An idle function entry, else a new one; `none` when there is no memory, where the source
passes a null pointer to `list_init_entry`. -/
def alloc_entry (a : Arena) : Option (Nat × Arena) :=
  let l := a.links.next FUNCT_ENTRY_FREE
  if l ≠ FUNCT_ENTRY_FREE then some (l, a.list_remove_entry l)
  else
    match shmalloc_dn a.brk Kind.entry.size with
    | (none, _) => none
    | (some off, brk) =>
        some (off.toNat, (a.carve .entry off.toNat brk).list_init_entry off.toNat)

end Arena

/-! ### Contents -/

/-- The HAL segment: `hal_data_t` and the structures, zero-filled by default. -/
structure Segment where
  arena : Arena := {}
  mutex : Bool := false
  lock : UInt8 := 0
  state : HalState := .uninit
  threads_running : Int := 0
  base_period : Int := 0
  exact_base_period : Int := 0
  pending_constructor : Addr := 0
  constructor_prefix : CStr := []
  init_pid : Int := 0
  error_code : Int := 0
  comp : Nat → Comp := fun _ => {}
  pin : Nat → Pin := fun _ => {}
  param : Nat → Param := fun _ => {}
  funct : Nat → Funct := fun _ => {}
  thread : Nat → Thread := fun _ => {}
  entry : Nat → Entry := fun _ => {}
  oldname : Nat → CStr := fun _ => []
  /-- pointer cells of the segment, by offset -/
  cell : Nat → Addr := fun _ => 0
  /-- values in memory -/
  data : Addr → Int := fun _ => 0

namespace Segment

/-- Change the links, and no contents. -/
def onArena (m : Segment) (f : Arena → Arena) : Segment := { m with arena := f m.arena }

def setComp (m : Segment) (x : Nat) (c : Comp) : Segment :=
  { m with comp := Function.update m.comp x c }

def setPin (m : Segment) (x : Nat) (p : Pin) : Segment :=
  { m with pin := Function.update m.pin x p }

def setParam (m : Segment) (x : Nat) (p : Param) : Segment :=
  { m with param := Function.update m.param x p }

def setFunct (m : Segment) (x : Nat) (f : Funct) : Segment :=
  { m with funct := Function.update m.funct x f }

def setThread (m : Segment) (x : Nat) (t : Thread) : Segment :=
  { m with thread := Function.update m.thread x t }

def setEntry (m : Segment) (x : Nat) (e : Entry) : Segment :=
  { m with entry := Function.update m.entry x e }

def setCell (m : Segment) (x : Nat) (v : Addr) : Segment :=
  { m with cell := Function.update m.cell x v }

def setData (m : Segment) (a : Addr) (v : Int) : Segment :=
  { m with data := Function.update m.data a v }

/-- Add a structure to its free list. -/
def pushFree (m : Segment) (k : Kind) (x : Nat) : Segment :=
  m.onArena fun a => a.setPool k ((a.pool k).pushFree x)

/-! ### Searching -/

/-- First structure on its list that passes the test; `0` when there is none. -/
def search (m : Segment) (k : Kind) (test : Nat → Bool) : Option Nat :=
  (m.arena.pool k).find test FUEL (m.arena.pool k).list_ptr

def halpr_find_comp_by_name (m : Segment) (name : CStr) : Option Nat :=
  m.search .comp fun x => strcmp (m.comp x).name name = 0

def halpr_find_comp_by_id (m : Segment) (id : Int) : Option Nat :=
  m.search .comp fun x => (m.comp x).comp_id = id

def halpr_find_funct_by_name (m : Segment) (name : CStr) : Option Nat :=
  m.search .funct fun x => strcmp (m.funct x).name name = 0

def halpr_find_thread_by_name (m : Segment) (name : CStr) : Option Nat :=
  m.search .thread fun x => strcmp (m.thread x).name name = 0

/-- Number of structures on a list. -/
def count (m : Segment) (k : Kind) : Nat → Nat → Option Nat
  | 0, _ => none
  | n + 1, next =>
      if next = 0 then some 0 else (m.count k n ((m.arena.pool k).next_ptr next)).map (· + 1)

/-! ### Inserting and unlinking -/

/-- The insertion loop of functions, parameters and pins: walk past the smaller names; insert
unless the name met is the same. -/
def insert_sorted (m : Segment) (k : Kind) (name : Nat → CStr) (x : Nat) :
    Option (Bool × Segment) :=
  ((m.arena.pool k).seek (fun y => 0 ≤ strcmp (name y) (name x)) FUEL .root).map fun prev =>
    let next := (m.arena.pool k).deref prev
    if next ≠ 0 ∧ strcmp (name next) (name x) = 0 then (false, m)
    else (true, m.onArena fun a => a.setPool k ((a.pool k).insertAt prev x))

/-- Insertion at the head of a list. -/
def insert_head (m : Segment) (k : Kind) (x : Nat) : Segment :=
  m.onArena fun a => a.setPool k ((a.pool k).insertAt .root x)

/-- `prev->next = x->next`, where the link before `x` is the head of the list or another structure.
-/
def unlink (m : Segment) (k : Kind) (prev : Link) (x : Nat) : Segment :=
  m.onArena fun a => a.setPool k ((a.pool k).unlink prev x)

/-- The clean-up loops of `free_comp_struct`: unlink and free what belongs to the component. -/
def sweep (k : Kind) (owned : Segment → Nat → Bool) (free : Segment → Nat → Option Segment) :
    Nat → Segment → Link → Option Segment
  | 0, _, _ => none
  | n + 1, m, prev =>
      let next := (m.arena.pool k).deref prev
      if next = 0 then some m
      else if owned m next then
        (free (m.unlink k prev next) next).bind fun m' => sweep k owned free n m' prev
      else sweep k owned free n m (.after next)

/-! ### Function entries -/

/-- From the ring of free entries, or from the allocator; a null entry cannot be linked. -/
def alloc_funct_entry_struct (m : Segment) : Option (Nat × Segment) :=
  m.arena.alloc_entry.map fun (p, a) => (p, { m with arena := a }.setEntry p {})

/-- The use of the function is given back, and the entry cleared and linked among the free ones. -/
def free_funct_entry_struct (m : Segment) (e : Nat) : Segment :=
  let f := (m.entry e).funct_ptr
  let m := if f > 0 then m.setFunct f { m.funct f with users := (m.funct f).users - 1 } else m
  (m.setEntry e {}).onArena fun a => a.list_add_after e FUNCT_ENTRY_FREE

/-- The loops of `free_funct_struct` and `free_thread_struct` over one ring: from `cur` on,
unlink and free the entries that pass the test. -/
def free_entries (root : Nat) (test : Entry → Bool) : Nat → Segment → Nat → Option Segment
  | 0, _, _ => none
  | n + 1, m, cur =>
      if cur = root then some m
      else if test (m.entry cur) then
        let next := m.arena.links.next cur
        free_entries root test n
          ((m.onArena fun a => a.list_remove_entry cur).free_funct_entry_struct cur) next
      else free_entries root test n m (m.arena.links.next cur)

/-- The walk of `free_funct_struct` over the threads. -/
def free_users (test : Entry → Bool) : Nat → Segment → Nat → Option Segment
  | 0, _, _ => none
  | n + 1, m, next_thread =>
      if next_thread = 0 then some m
      else
        let root := next_thread + THREAD_FUNCT_LIST
        (free_entries root test FUEL m (m.arena.links.next root)).bind fun m' =>
          free_users test n m' ((m'.arena.pool .thread).next_ptr next_thread)

/-! ### Structures -/

/-- `hal_init` writes the other fields. -/
def halpr_alloc_comp_struct (m : Segment) : Nat × Segment :=
  let (p, a) := m.arena.alloc .comp
  let m := { m with arena := a }
  if p = 0 then (p, m)
  else
    (p, m.setComp p { m.comp p with
      comp_id := 0, mem_id := 0, type := .user, shmem_base := 0, name := [] })

def alloc_funct_struct (m : Segment) : Nat × Segment :=
  let (p, a) := m.arena.alloc .funct
  let m := { m with arena := a }
  if p = 0 then (p, m)
  else
    (p, m.setFunct p
      { uses_fp := 0, owner_ptr := 0, reentrant := 0, users := 0, arg := 0, funct := 0
        name := [] })

/-- `oldname` is not written. -/
def alloc_param_struct (m : Segment) : Nat × Segment :=
  let (p, a) := m.arena.alloc .param
  let m := { m with arena := a }
  if p = 0 then (p, m)
  else
    (p, m.setParam p { m.param p with
      data_ptr := 0, owner_ptr := 0, type := .uninitialized, name := [] })

/-- `oldname` is written here. -/
def alloc_pin_struct (m : Segment) : Nat × Segment :=
  let (p, a) := m.arena.alloc .pin
  let m := { m with arena := a }
  if p = 0 then (p, m)
  else
    (p, m.setPin p
      { data_ptr_addr := 0, owner_ptr := 0, type := .uninitialized, signal := 0, name := []
        oldname := 0 })

def alloc_thread_struct (m : Segment) : Nat × Segment :=
  let (p, a) := m.arena.alloc .thread
  let m := { m with arena := a }
  if p = 0 then (p, m)
  else
    let m := m.setThread p { m.thread p with
      uses_fp := 0, period := 0, priority := 0, task_id := 0, name := [] }
    (p, m.onArena fun a => a.list_init_entry (p + THREAD_FUNCT_LIST))

/-- An alias goes to its own free list. -/
def free_oldname_struct (m : Segment) (x : Nat) : Segment :=
  { m with oldname := Function.update m.oldname x [] }.pushFree .oldname x

/-- The alias goes first, where there is one. -/
def free_param_struct (m : Segment) (x : Nat) : Segment :=
  let m := if (m.param x).oldname ≠ 0 then m.free_oldname_struct (m.param x).oldname else m
  (m.setParam x { m.param x with
    data_ptr := 0, owner_ptr := 0, type := .uninitialized, name := [] }).pushFree .param x

/-- `base` is `hal_shmem_base`; the dummy signal is cleared. -/
def free_pin_struct (m : Segment) (base : Addr) (x : Nat) : Segment :=
  let m := if (m.pin x).oldname ≠ 0 then m.free_oldname_struct (m.pin x).oldname else m
  let m := m.setPin x { m.pin x with
    data_ptr_addr := 0, owner_ptr := 0, type := .uninitialized, signal := 0, name := [] }
  (m.setData (base + x + PIN_DUMMYSIG) 0).pushFree .pin x

/-- Every entry of it leaves the rings, and its cell is cleared. -/
def free_funct_struct (m : Segment) (x : Nat) : Option Segment :=
  (if (m.funct x).users > 0 then
      free_users (fun e => e.funct_ptr = x) FUEL m (m.arena.pool .thread).list_ptr
    else some m).map fun m =>
  ((m.setFunct x
    { uses_fp := 0, owner_ptr := 0, reentrant := 0, users := 0, arg := 0, funct := 0
      name := [] }).setCell (x + FUNCT_RUNTIME) 0).pushFree .funct x

/-- The functions and the parameters of the component; its pins stay listed. -/
def free_comp_struct (m : Segment) (x : Nat) : Option Segment :=
  (sweep .funct (fun m y => (m.funct y).owner_ptr = x) free_funct_struct FUEL m .root).bind
    fun m =>
  (sweep .param (fun m y => (m.param y).owner_ptr = x) (fun m y => some (m.free_param_struct y))
    FUEL m .root).map fun m =>
  (m.setComp x { m.comp x with
    comp_id := 0, mem_id := 0, type := .user, shmem_base := 0, name := [] }).pushFree .comp x

/-- The part of `free_thread_struct` behind the RTAPI calls. -/
def clear_thread (m : Segment) (x : Nat) : Option Segment :=
  let m := m.setThread x { m.thread x with uses_fp := 0, period := 0, priority := 0, task_id := 0 }
  let root := x + THREAD_FUNCT_LIST
  (free_entries root (fun _ => true) FUEL m (m.arena.links.next root)).map fun m =>
  (m.setThread x { m.thread x with name := [] }).pushFree .thread x

end Segment

end RTS.Hal

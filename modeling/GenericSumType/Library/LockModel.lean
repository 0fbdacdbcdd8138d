/-
Module: GenericSumType.Library.LockModel
Layer: Library
Purpose: Locks as one thread sees them.  A model says when an acquisition succeeds and what a release
  does; `Tracking` relates its state to the stack of keys that are held, and its three rules are all
  that a client needs to carry the relation through a run.
Imports: Mathlib.Logic.Function.Basic, Mathlib.Data.List.Nodup
Trusted boundary: human-reviewed lock models
Main exports: LockModel, LockModel.noop, LockModel.mutex, LockModel.recursive, Tracking,
  mutexTracking, recursiveTracking
Open obligations: none
-/
import Mathlib.Logic.Function.Basic
import Mathlib.Data.List.Nodup

/-- A lock for each key.  `acquire` is `none` where the caller blocks. -/
structure LockModel (κ : Type) where
  State : Type
  free : State
  acquire : κ → State → Option State
  release : κ → State → State

namespace LockModel

variable {κ : Type} [DecidableEq κ]

section Functions

def acquireMutex (k : κ) (s : κ → Bool) : Option (κ → Bool) :=
  if s k then none else some (Function.update s k true)

def releaseMutex (k : κ) (s : κ → Bool) : κ → Bool :=
  Function.update s k false

def acquireRecursive (k : κ) (s : κ → Nat) : Option (κ → Nat) :=
  some (Function.update s k (s k + 1))

def releaseRecursive (k : κ) (s : κ → Nat) : κ → Nat :=
  Function.update s k (s k - 1)

end Functions

omit [DecidableEq κ] in
/-- No lock at all. -/
def noop (κ : Type) : LockModel κ where
  State := Unit
  free := ()
  acquire _ s := some s
  release _ s := s

/-- A lock that blocks while it is held, whoever holds it. -/
def mutex (κ : Type) [DecidableEq κ] : LockModel κ where
  State := κ → Bool
  free := fun _ => false
  acquire := acquireMutex
  release := releaseMutex

/-- A lock that counts how often its holder took it. -/
def recursive (κ : Type) [DecidableEq κ] : LockModel κ where
  State := κ → Nat
  free := fun _ => 0
  acquire := acquireRecursive
  release := releaseRecursive

def mutexHeld (s : (mutex κ).State) (k : κ) : Bool :=
  (show κ → Bool from s) k

/-- A relation between the state of the locks and the stack of keys held by the thread. -/
structure Tracking (L : LockModel κ) where
  Tracks : L.State → List κ → Prop
  free : Tracks L.free []
  acquired : ∀ {s s' held k}, Tracks s held → L.acquire k s = some s' → Tracks s' (k :: held)
  released : ∀ {s held k}, Tracks s (k :: held) → Tracks (L.release k s) held

/-! ### The mutex -/

/-- A mutex is held exactly for the keys on the stack, and no key is there twice. -/
def MutexTracks (s : κ → Bool) (held : List κ) : Prop :=
  held.Nodup ∧ ∀ k, s k = true ↔ k ∈ held

/-- A mutex is refused exactly while it is held. -/
theorem acquireMutex_eq_none_iff {k : κ} {s : κ → Bool} :
    acquireMutex k s = none ↔ s k = true := by
  unfold acquireMutex
  split <;> simp [*]

/-- Taking a mutex needs it free and leaves it held. -/
theorem acquireMutex_eq_some {k : κ} {s s' : κ → Bool} (taken : acquireMutex k s = some s') :
    s k = false ∧ s' k = true := by
  unfold acquireMutex at taken
  split at taken
  · cases taken
  · rename_i free
    obtain rfl := Option.some.inj taken
    exact ⟨Bool.not_eq_true _ ▸ free, Function.update_self k true s⟩

/-- A free mutex is taken. -/
theorem acquireMutex_of_free {k : κ} {s : κ → Bool} (free : s k = false) :
    acquireMutex k s = some (Function.update s k true) := by
  simp [acquireMutex, free]

theorem releaseMutex_self (k : κ) (s : κ → Bool) : releaseMutex k s k = false := by
  simp [releaseMutex]

/-- A mutex that was taken lies on top of the stack, and was not on it before. -/
theorem MutexTracks.acquired {k : κ} {s s' : κ → Bool} {held : List κ}
    (tracks : MutexTracks s held) (taken : acquireMutex k s = some s') :
    MutexTracks s' (k :: held) := by
  rcases tracks with ⟨distinct, holds⟩
  unfold acquireMutex at taken
  split at taken
  · cases taken
  · rename_i notHeld
    obtain rfl := Option.some.inj taken
    have fresh : k ∉ held := fun onStack => notHeld ((holds k).mpr onStack)
    refine ⟨List.nodup_cons.mpr ⟨fresh, distinct⟩, ?_⟩
    intro j
    by_cases same : j = k
    · subst j
      simp
    · rw [Function.update_of_ne same, holds, List.mem_cons]
      simp [same]

/-- The mutex on top of the stack is the one that is given back. -/
theorem MutexTracks.released {k : κ} {s : κ → Bool} {held : List κ}
    (tracks : MutexTracks s (k :: held)) : MutexTracks (releaseMutex k s) held := by
  rcases tracks with ⟨distinct, holds⟩
  rw [List.nodup_cons] at distinct
  refine ⟨distinct.2, ?_⟩
  intro j
  unfold releaseMutex
  by_cases same : j = k
  · subst j
    simpa using distinct.1
  · rw [Function.update_of_ne same, holds, List.mem_cons]
    simp [same]

def mutexTracking : (mutex κ).Tracking where
  Tracks := MutexTracks
  free := ⟨List.nodup_nil, fun k => by simp [mutex]⟩
  acquired tracks taken := MutexTracks.acquired tracks taken
  released tracks := MutexTracks.released tracks

theorem mutexHeld_of_acquire {k : κ} {s s' : (mutex κ).State}
    (taken : (mutex κ).acquire k s = some s') :
    mutexHeld s k = false ∧ mutexHeld s' k = true :=
  acquireMutex_eq_some taken

/-- A mutex that is not held can be taken. -/
theorem acquire_of_not_held {k : κ} {s : (mutex κ).State} (free : mutexHeld s k = false) :
    ∃ s', (mutex κ).acquire k s = some s' :=
  ⟨_, acquireMutex_of_free free⟩

theorem mutexHeld_release (k : κ) (s : (mutex κ).State) :
    mutexHeld ((mutex κ).release k s) k = false :=
  releaseMutex_self k s

/-! ### The recursive lock -/

/-- A recursive lock counts the occurrences of its key on the stack. -/
def RecursiveTracks (s : κ → Nat) (held : List κ) : Prop :=
  ∀ k, s k = held.count k

/-- Each time that a recursive lock is taken puts its key on the stack once more. -/
theorem RecursiveTracks.acquired {k : κ} {s s' : κ → Nat} {held : List κ}
    (tracks : RecursiveTracks s held) (taken : acquireRecursive k s = some s') :
    RecursiveTracks s' (k :: held) := by
  obtain rfl := Option.some.inj taken
  intro j
  by_cases same : j = k
  · subst j
    rw [Function.update_self, tracks, List.count_cons_self]
  · rw [Function.update_of_ne same, tracks, List.count_cons_of_ne (Ne.symm same)]

/-- And each time that it is given back takes it off once. -/
theorem RecursiveTracks.released {k : κ} {s : κ → Nat} {held : List κ}
    (tracks : RecursiveTracks s (k :: held)) : RecursiveTracks (releaseRecursive k s) held := by
  intro j
  unfold releaseRecursive
  by_cases same : j = k
  · subst j
    rw [Function.update_self, tracks, List.count_cons_self]
    rfl
  · rw [Function.update_of_ne same, tracks, List.count_cons_of_ne (Ne.symm same)]

def recursiveTracking : (recursive κ).Tracking where
  Tracks := RecursiveTracks
  free := fun _ => rfl
  acquired tracks taken := RecursiveTracks.acquired tracks taken
  released tracks := RecursiveTracks.released tracks

end LockModel

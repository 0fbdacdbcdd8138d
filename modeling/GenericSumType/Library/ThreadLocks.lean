/-
Module: GenericSumType.Library.ThreadLocks
Layer: Library
Purpose: Threads that share mutexes.  Interleavings of finitely many terminating threads terminate; a
  mutex is held by at most one thread; threads that wait for each other in a circle are the only way to
  get stuck, and there is no circle when every thread waits above all that it holds.
Imports: GenericSumType.Library.LockModel, Mathlib.Logic.Hydra, Mathlib.Data.Fintype.Basic,
  Mathlib.Data.Set.Finite.Lemmas
Trusted boundary: none
Main exports: Interleaves, wellFounded_interleaves, interleaving_ends, MutexShared, MutexShared.acquired,
  MutexShared.released, WaitCycle, not_waitCycle_of_climbing
Open obligations: none
-/
import GenericSumType.Library.LockModel
import Mathlib.Logic.Hydra
import Mathlib.Data.Fintype.Basic
import Mathlib.Data.Set.Finite.Lemmas

section Interleaving

variable {ι α : Type*} [DecidableEq ι]

/-- One thread makes a step of `r`, written backwards as for well-founded relations. -/
def Interleaves (r : α → α → Prop) (f' f : ι → α) : Prop :=
  ∃ t a, r a (f t) ∧ f' = Function.update f t a

/-- A step of one thread replaces one element of the multiset of all threads by a smaller one. -/
theorem Interleaves.cutExpand [Fintype ι] {r : α → α → Prop} {f' f : ι → α}
    (step : Interleaves r f' f) :
    Relation.CutExpand r (Finset.univ.val.map f') (Finset.univ.val.map f) := by
  obtain ⟨t, a, smaller, rfl⟩ := step
  have split : (Finset.univ : Finset ι).val = t ::ₘ Finset.univ.val.erase t :=
    (Multiset.cons_erase (Finset.mem_univ_val t)).symm
  have others : (Finset.univ.val.erase t).map (Function.update f t a) =
      (Finset.univ.val.erase t).map f := by
    apply Multiset.map_congr rfl
    intro u member
    exact Function.update_of_ne ((Multiset.Nodup.mem_erase_iff Finset.univ.nodup).mp member).1 a f
  refine ⟨{a}, f t, ?_, ?_⟩
  · intro b member
    rw [Multiset.mem_singleton.mp member]
    exact smaller
  · rw [split, Multiset.map_cons, Multiset.map_cons, others, Function.update_self,
      ← Multiset.singleton_add, ← Multiset.singleton_add, add_comm ({a} : Multiset α),
      add_comm ({f t} : Multiset α), add_right_comm]

/-- Finitely many threads that terminate one by one terminate together. -/
theorem wellFounded_interleaves [Finite ι] {r : α → α → Prop} (terminates : WellFounded r) :
    WellFounded (Interleaves r : (ι → α) → (ι → α) → Prop) := by
  cases nonempty_fintype ι
  have measured := InvImage.wf (fun f : ι → α => Finset.univ.val.map f) terminates.cutExpand
  exact Subrelation.wf Interleaves.cutExpand measured

/-- Finitely many threads that terminate one by one do not take turns for ever. -/
theorem interleaving_ends [Finite ι] {r : α → α → Prop} (terminates : WellFounded r)
    (run : Nat → ι → α) : ∃ n, ¬Interleaves r (run (n + 1)) (run n) := by
  have : IsWellFounded (ι → α) (Interleaves r) := ⟨wellFounded_interleaves terminates⟩
  exact WellFounded.not_rel_apply_succ run

end Interleaving

namespace LockModel

/-- Taking a mutex does not change another one. -/
theorem acquireMutex_of_ne {κ : Type} [DecidableEq κ] {s s' : κ → Bool} {k j : κ}
    (taken : acquireMutex k s = some s') (other : j ≠ k) : s' j = s j := by
  rw [acquireMutex_of_free (acquireMutex_eq_some taken).1] at taken
  rw [← Option.some.inj taken]
  exact Function.update_of_ne other true s

theorem mutexHeld_of_acquire_of_ne {κ : Type} [DecidableEq κ] {s s' : (mutex κ).State} {k j : κ}
    (taken : (mutex κ).acquire k s = some s') (other : j ≠ k) : mutexHeld s' j = mutexHeld s j :=
  acquireMutex_of_ne taken other

section Shared

variable {ι κ : Type} [DecidableEq ι] [DecidableEq κ]

/-- A mutex is held exactly for the keys that threads hold, no thread holds a key twice and no two threads
    hold the same one. -/
structure MutexShared (s : κ → Bool) (held : ι → List κ) : Prop where
  distinct : ∀ t, (held t).Nodup
  exclusive : ∀ {t u k}, k ∈ held t → k ∈ held u → t = u
  held_iff : ∀ k, s k = true ↔ ∃ t, k ∈ held t

omit [DecidableEq ι] [DecidableEq κ] in
theorem MutexShared.free {held : ι → List κ} (nothing : ∀ t, held t = []) :
    MutexShared (fun _ => false) held where
  distinct t := by
    rw [nothing t]
    exact List.nodup_nil
  exclusive := by
    intro t u k mine
    rw [nothing t] at mine
    cases mine
  held_iff k := by
    constructor
    · intro taken
      cases taken
    · rintro ⟨t, mine⟩
      rw [nothing t] at mine
      cases mine

variable {s s' : κ → Bool} {held : ι → List κ} {t : ι} {k : κ}

theorem MutexShared.acquired (shared : MutexShared s held) (taken : acquireMutex k s = some s') :
    MutexShared s' (Function.update held t (k :: held t)) := by
  obtain ⟨wasFree, -⟩ := acquireMutex_eq_some taken
  rw [acquireMutex_of_free wasFree] at taken
  obtain rfl := Option.some.inj taken
  have unheld : ∀ u, k ∉ held u := by
    intro u mine
    have busy := (shared.held_iff k).mpr ⟨u, mine⟩
    rw [wasFree] at busy
    cases busy
  have mem_iff (u : ι) (j : κ) :
      j ∈ Function.update held t (k :: held t) u ↔ j ∈ held u ∨ u = t ∧ j = k := by
    by_cases same : u = t
    · subst u
      rw [Function.update_self, List.mem_cons]
      simp [or_comm]
    · rw [Function.update_of_ne same]
      simp [same]
  constructor
  · intro u
    by_cases same : u = t
    · subst u
      rw [Function.update_self]
      exact List.nodup_cons.mpr ⟨unheld t, shared.distinct t⟩
    · rw [Function.update_of_ne same]
      exact shared.distinct u
  · intro u w j first second
    rcases (mem_iff u j).mp first with mine | ⟨rfl, rfl⟩
    · rcases (mem_iff w j).mp second with other | ⟨rfl, rfl⟩
      · exact shared.exclusive mine other
      · exact absurd mine (unheld u)
    · rcases (mem_iff w j).mp second with other | ⟨rfl, _⟩
      · exact absurd other (unheld w)
      · rfl
  · intro j
    by_cases same : j = k
    · subst j
      rw [Function.update_self]
      exact iff_of_true rfl ⟨t, (mem_iff t k).mpr (.inr ⟨rfl, rfl⟩)⟩
    · rw [Function.update_of_ne same, shared.held_iff]
      apply exists_congr
      intro u
      rw [mem_iff]
      simp [same]

theorem MutexShared.released (shared : MutexShared s held) {rest : List κ} (top : held t = k :: rest) :
    MutexShared (releaseMutex k s) (Function.update held t rest) := by
  have fresh : k ∉ rest := by
    have distinct := shared.distinct t
    rw [top] at distinct
    exact (List.nodup_cons.mp distinct).1
  have mine : k ∈ held t := by
    rw [top]
    exact List.mem_cons_self
  have mem_iff (u : ι) (j : κ) : j ∈ Function.update held t rest u ↔ j ∈ held u ∧ j ≠ k := by
    by_cases same : u = t
    · subst u
      rw [Function.update_self, top, List.mem_cons]
      constructor
      · intro member
        exact ⟨.inr member, fun equal => fresh (equal ▸ member)⟩
      · rintro ⟨rfl | member, other⟩
        · exact absurd rfl other
        · exact member
    · rw [Function.update_of_ne same]
      constructor
      · intro member
        refine ⟨member, ?_⟩
        rintro rfl
        exact same (shared.exclusive member mine)
      · exact And.left
  constructor
  · intro u
    by_cases same : u = t
    · subst u
      have distinct := shared.distinct t
      rw [top] at distinct
      rw [Function.update_self]
      exact (List.nodup_cons.mp distinct).2
    · rw [Function.update_of_ne same]
      exact shared.distinct u
  · intro u w j first second
    exact shared.exclusive ((mem_iff u j).mp first).1 ((mem_iff w j).mp second).1
  · intro j
    unfold releaseMutex
    by_cases same : j = k
    · subst j
      rw [Function.update_self]
      refine iff_of_false Bool.false_ne_true ?_
      rintro ⟨u, member⟩
      exact ((mem_iff u k).mp member).2 rfl
    · rw [Function.update_of_ne same, shared.held_iff]
      apply exists_congr
      intro u
      rw [mem_iff]
      simp [same]

end Shared

section Waiting

variable {ι κ : Type*}

/-- Threads of `S` that all wait for a key that a thread of `S` holds. -/
structure WaitCycle (holds waits : ι → κ → Prop) (S : Set ι) : Prop where
  nonempty : S.Nonempty
  waiting : ∀ t ∈ S, ∃ k, waits t k ∧ ∃ u ∈ S, holds u k

/-- Threads that wait for keys ranked above all keys that they hold do not wait in a circle: the one that
    waits highest would have to wait for one that waits higher. -/
theorem not_waitCycle_of_climbing [Finite ι] {ρ : Type*} [LinearOrder ρ] (rank : κ → ρ)
    {holds waits : ι → κ → Prop} (climbing : ∀ t j k, holds t j → waits t k → rank j < rank k)
    (S : Set ι) : ¬WaitCycle holds waits S := by
  rintro ⟨nonempty, waiting⟩
  have waitsAll (t : S) : ∃ k, waits t k ∧ ∃ u ∈ S, holds u k := waiting t t.2
  choose key waits holder using waitsAll
  obtain ⟨t₀, member₀⟩ := nonempty
  obtain ⟨t, -, highest⟩ := Set.exists_max_image (Set.univ : Set S) (fun t => rank (key t))
    Set.finite_univ ⟨⟨t₀, member₀⟩, trivial⟩
  obtain ⟨u, member, holdsKey⟩ := holder t
  have above := climbing u (key t) (key ⟨u, member⟩) holdsKey (waits ⟨u, member⟩)
  exact absurd (highest ⟨u, member⟩ trivial) (not_le_of_gt above)

end Waiting

end LockModel

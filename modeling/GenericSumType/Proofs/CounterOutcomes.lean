/-
Module: GenericSumType.Proofs.CounterOutcomes
Layer: Proofs
Purpose: What the demo of the shared counter can end with.  Under its mutex all runs end with 0; with the
  hooks that the header defines by default, which do nothing, the possible ends are all numbers between
  the total of the decrements and that of the increments.
Imports: GenericSumType.Proofs.SharedCounter, GenericSumType.Proofs.NestedThreads,
  GenericSumType.Proofs.UnlockedDispatch
Trusted boundary: without a lock, a read and a write of the counter are taken as one step each, although
  the C standard promises nothing for unlocked accesses
Main exports: dispatches_only_lose_updates, locked_demo_returns_zero, unlocked_demo_outcomes
Open obligations: none
-/
import GenericSumType.Proofs.SharedCounter
import GenericSumType.Proofs.NestedThreads
import GenericSumType.Proofs.UnlockedDispatch

namespace GenericSumType

namespace ThreadsafeDispatchDemo

/-- Whatever the lock hooks do, workers whose handlers read the shared context and write it back can only
    lose updates: in a final state the context is what some of the calls leave behind when each is
    executed at once by the generated function, in an order that keeps the order of every thread. -/
theorem dispatches_only_lose_updates {B ι C V : Type} [DecidableEq B] [DecidableEq ι] [DecidableEq C]
    {L : LockModel C} {M : TypeModel B} (c : C) (calls : ι → List (LeafCall M V)) (contexts : C → V)
    (updates : ∀ t, ∀ d ∈ calls t, d.code.ReadsThenWrites) (s : System ι M C V L)
    (reached : (System.start L c calls contexts).Reaches s) (final : s.Final) :
    ∃ order : List (ι × LeafCall M V), (∀ t, (JobCode.jobsOf order t).Sublist (calls t)) ∧
      order.foldlM (fun v e => e.2.execute v) (contexts c) = .ok (s.contexts c) := by
  obtain ⟨w, represents, behind⟩ := Workers.of_reached reached
  obtain ⟨order, value, each⟩ :=
    Workers.salvaged_of_ended updates behind (represents.ended.mp final)
  refine ⟨order, each, ?_⟩
  rw [serial_eq_foldlM, value, represents.value]

theorem readsThenWrites_apply (L : LongType) : ∀ cmd : Command, (apply L cmd).code.ReadsThenWrites
  | ⟨⟨0, _⟩, c⟩ => ⟨fun v => L.result (v + CmdIncrement.amount c), rfl⟩
  | ⟨⟨1, _⟩, c⟩ => ⟨fun v => L.result (v - CmdDecrement.amount c), rfl⟩

/-- The two threads of `race` without a lock: the decrement comes between the read and the write of the
    increment. -/
theorem dispatches_only_lose_updates_race :
    ∃ order : List (Bool × LeafCall model Int),
      (∀ t, (JobCode.jobsOf order t).Sublist ((race t).map (apply long64))) ∧
        order.foldlM (fun v e => e.2.execute v) 0 = .ok 5 := by
  let start : System Bool model Unit Int (.noop Unit) :=
    System.start (.noop Unit) () (fun t => (race t).map (apply long64)) fun _ => 0
  let schedule := [true, true, true, true, false, false, false, false, false, false, false, false,
    false, true, true, true, true, true]
  have ran : (start.runSchedule schedule).isSome = true := rfl
  have reached := System.reaches_of_runSchedule (Option.some_get ran).symm
  have final : ((start.runSchedule schedule).get ran).Final := by
    intro t
    cases t <;> rfl
  have updates (t : Bool) : ∀ d ∈ (race t).map (apply long64), d.code.ReadsThenWrites := by
    intro d member
    obtain ⟨cmd, _, rfl⟩ := List.mem_map.mp member
    exact readsThenWrites_apply long64 cmd
  exact dispatches_only_lose_updates () _ (fun _ => 0) updates _ reached final

/-! ### Totals -/

section Totals

variable {n k : Nat}

/-- Some of the increments of a thread. -/
theorem sum_change_workerInc {issued : List Command} (part : issued.Sublist (workerInc k)) :
    0 ≤ (issued.map change).sum ∧ (issued.map change).sum ≤ k := by
  obtain ⟨m, fewer, rfl⟩ := List.sublist_replicate_iff.mp part
  have one : change (increment 1) = 1 := rfl
  rw [List.map_replicate, List.sum_replicate, one]
  simpa using fewer

theorem sum_change_workerDec {issued : List Command} (part : issued.Sublist (workerDec k)) :
    -(k : Int) ≤ (issued.map change).sum ∧ (issued.map change).sum ≤ 0 := by
  obtain ⟨m, fewer, rfl⟩ := List.sublist_replicate_iff.mp part
  have one : change (decrement 1) = -1 := rfl
  rw [List.map_replicate, List.sum_replicate, one]
  simpa using fewer

/-- Some of the commands of the demo, in any order. -/
theorem sum_change_part {order : List ((Fin n ⊕ Fin n) × Command)}
    (part : ∀ t, (JobCode.jobsOf order t).Sublist (threads n k t)) :
    -((n * k : Nat) : Int) ≤ (order.map fun e => change e.2).sum ∧
      (order.map fun e => change e.2).sum ≤ (n * k : Nat) := by
  rw [JobCode.sum_jobsOf change, Fintype.sum_sum_type]
  have incs (i : Fin n) := sum_change_workerInc (part (.inl i))
  have decs (i : Fin n) := sum_change_workerDec (part (.inr i))
  have incsLow := Finset.sum_nonneg fun i (_ : i ∈ Finset.univ) => (incs i).1
  have incsHigh := Finset.sum_le_card_nsmul Finset.univ _ _ fun i _ => (incs i).2
  have decsLow := Finset.card_nsmul_le_sum Finset.univ _ _ fun i _ => (decs i).1
  have decsHigh := Finset.sum_nonpos fun i (_ : i ∈ Finset.univ) => (decs i).2
  rw [Finset.card_univ, Fintype.card_fin, nsmul_eq_mul] at incsHigh decsLow
  push_cast
  constructor <;> linarith

variable {L : LongType} (low : L.InRange (-((n * k : Nat) : Int))) (high : L.InRange (n * k : Nat))

include low high

/-- No partial sum overflows. -/
theorem inRange_part {order : List ((Fin n ⊕ Fin n) × Command)}
    (part : ∀ t, (JobCode.jobsOf order t).Sublist (threads n k t)) (j : Nat) :
    L.InRange (0 + ((order.take j).map fun e => change e.2).sum) := by
  have earlier (t : Fin n ⊕ Fin n) : (JobCode.jobsOf (order.take j) t).Sublist (threads n k t) :=
    (JobCode.jobsOf_sublist (List.take_sublist j order) t).trans (part t)
  have bounds := sum_change_part earlier
  rw [zero_add]
  exact ⟨low.1.trans bounds.1, bounds.2.trans high.2⟩

/-- Some of the commands of the demo, executed at once. -/
theorem serial_part {order : List ((Fin n ⊕ Fin n) × Command)}
    (part : ∀ t, (JobCode.jobsOf order t).Sublist (threads n k t)) :
    (leafCode model Int).serial (order.map fun e => (e.1, apply L e.2)) 0 =
      (order.map fun e => change e.2).sum := by
  rw [serial_commands L (inRange_part low high part), zero_add]

end Totals

/-! ### With the mutex -/

theorem sum_change_threads {n k : Nat} {order : List ((Fin n ⊕ Fin n) × Command)}
    (each : ∀ t, JobCode.jobsOf order t = threads n k t) :
    (order.map fun e => change e.2).sum = 0 := by
  have inc : change (increment 1) = 1 := rfl
  have dec : change (decrement 1) = -1 := rfl
  rw [JobCode.sum_jobsOf change, Fintype.sum_sum_type]
  simp [each, threads, workerInc, workerDec, inc, dec]

/-- The demo, for any number of threads of each kind and any number of iterations whose product is a
    `long`.  With the mutex in the hooks every run ends, only when all threads have returned, and then
    `main` returns 0. -/
theorem locked_demo_returns_zero (L : LongType) (n k : Nat) (low : L.InRange (-((n * k : Nat) : Int)))
    (high : L.InRange (n * k : Nat)) :
    (∀ run : Nat → System (Fin n ⊕ Fin n) model Unit Int (.mutex Unit),
      run 0 = spawned L (.mutex Unit) n k → ∃ m, ¬(run m).Step (run (m + 1))) ∧
    ∀ s : System (Fin n ⊕ Fin n) model Unit Int (.mutex Unit),
      (spawned L (.mutex Unit) n k).Reaches s →
        (¬s.Final → ∃ s', s.Step s') ∧ (s.Final → mainReturns (s.contexts ()) = 0) := by
  constructor
  · intro run spawn
    exact System.ends_of_launched run spawn
  · intro s reached
    obtain ⟨phase, a, sim, behind⟩ := simulates_of_reached reached
    refine ⟨enabled_of_not_final sim, ?_⟩
    intro final
    obtain ⟨value, each⟩ :=
      serial_of_final sim ((leafCode model Int).serialized_of_reached behind) final
    obtain ⟨issued, read, issuedOf⟩ := JobCode.log_of_jobs (apply_injective L) each
    have part (t : Fin n ⊕ Fin n) : (JobCode.jobsOf issued t).Sublist (threads n k t) := by
      rw [issuedOf t]
    rw [value, read, serial_part low high part, sum_change_threads issuedOf]
    rfl

/-- One thread of each kind, with one command each. -/
theorem locked_demo_returns_zero_pair :
    ∃ s, (spawned long64 (.mutex Unit) 1 1).Reaches s ∧ s.Final ∧ mainReturns (s.contexts ()) = 0 := by
  let schedule : List (Fin 1 ⊕ Fin 1) := raceSchedule.map fun first => if first then .inl 0 else .inr 0
  have ran : ((spawned long64 (.mutex Unit) 1 1).runSchedule schedule).isSome = true := rfl
  have reached := System.reaches_of_runSchedule (Option.some_get ran).symm
  have final : (((spawned long64 (.mutex Unit) 1 1).runSchedule schedule).get ran).Final := by
    intro t
    cases t with
    | inl i =>
        obtain rfl := Subsingleton.elim i 0
        rfl
    | inr i =>
        obtain rfl := Subsingleton.elim i 0
        rfl
  have returns := (locked_demo_returns_zero long64 1 1 (by decide) (by decide)).2 _ reached
  exact ⟨_, reached, final, returns.2 final⟩

/-! ### With the default hooks -/

/-- All increments, one thread after the other. -/
def incs (n k : Nat) : List ((Fin n ⊕ Fin n) × Command) :=
  JobCode.inTurn .inl (List.finRange n) (workerInc k)

def decs (n k : Nat) : List ((Fin n ⊕ Fin n) × Command) :=
  JobCode.inTurn .inr (List.finRange n) (workerDec k)

variable {n k : Nat}

theorem jobsOf_incs : ∀ t, JobCode.jobsOf (incs n k) t =
    match t with
    | .inl _ => workerInc k
    | .inr _ => []
  | .inl i => JobCode.jobsOf_inTurn Sum.inl_injective (List.nodup_finRange n) (List.mem_finRange i) _
  | .inr i => JobCode.jobsOf_inTurn_of_ne (by simp) _

theorem jobsOf_decs : ∀ t, JobCode.jobsOf (decs n k) t =
    match t with
    | .inl _ => []
    | .inr _ => workerDec k
  | .inl i => JobCode.jobsOf_inTurn_of_ne (by simp) _
  | .inr i => JobCode.jobsOf_inTurn Sum.inr_injective (List.nodup_finRange n) (List.mem_finRange i) _

theorem jobsOf_incs_append_decs (t : Fin n ⊕ Fin n) :
    JobCode.jobsOf (incs n k ++ decs n k) t = threads n k t := by
  rw [JobCode.jobsOf_append, jobsOf_incs, jobsOf_decs]
  cases t <;> simp [threads]

theorem jobsOf_decs_append_incs (t : Fin n ⊕ Fin n) :
    JobCode.jobsOf (decs n k ++ incs n k) t = threads n k t := by
  rw [JobCode.jobsOf_append, jobsOf_incs, jobsOf_decs]
  cases t <;> simp [threads]

/-- All entries of `incs` are increments. -/
theorem sum_change_incs {log : List ((Fin n ⊕ Fin n) × Command)} (part : log.Sublist (incs n k)) :
    (log.map fun e => change e.2).sum = log.length := by
  have one : ∀ x ∈ log.map fun e => change e.2, x = 1 := by
    intro x member
    obtain ⟨e, logged, rfl⟩ := List.mem_map.mp member
    obtain ⟨i, _, entry⟩ := List.mem_flatMap.mp (part.subset logged)
    obtain ⟨cmd, issued, rfl⟩ := List.mem_map.mp entry
    rw [(List.mem_replicate.mp issued).2]
    rfl
  rw [List.sum_eq_card_nsmul _ 1 one, List.length_map, nsmul_eq_mul, mul_one]

theorem sum_change_decs {log : List ((Fin n ⊕ Fin n) × Command)} (part : log.Sublist (decs n k)) :
    (log.map fun e => change e.2).sum = -log.length := by
  have one : ∀ x ∈ log.map fun e => change e.2, x = -1 := by
    intro x member
    obtain ⟨e, logged, rfl⟩ := List.mem_map.mp member
    obtain ⟨i, _, entry⟩ := List.mem_flatMap.mp (part.subset logged)
    obtain ⟨cmd, issued, rfl⟩ := List.mem_map.mp entry
    rw [(List.mem_replicate.mp issued).2]
    rfl
  rw [List.sum_eq_card_nsmul _ (-1) one, List.length_map, nsmul_eq_mul, mul_neg, mul_one]

theorem incs_apart : ∀ e ∈ incs n k, JobCode.jobsOf (decs n k) e.1 = [] := by
  intro e logged
  obtain ⟨i, _, entry⟩ := List.mem_flatMap.mp logged
  obtain ⟨cmd, _, rfl⟩ := List.mem_map.mp entry
  exact jobsOf_decs (.inl i)

theorem decs_apart : ∀ e ∈ decs n k, JobCode.jobsOf (incs n k) e.1 = [] := by
  intro e logged
  obtain ⟨i, _, entry⟩ := List.mem_flatMap.mp logged
  obtain ⟨cmd, _, rfl⟩ := List.mem_map.mp entry
  exact jobsOf_incs (.inr i)

theorem length_incs : (incs n k).length = n * k := by
  simp [incs, JobCode.inTurn, workerInc]

theorem length_decs : (decs n k).length = n * k := by
  simp [decs, JobCode.inTurn, workerDec]

section Outcomes

variable {L : LongType}

/-- The demo without a lock can end with `v`. -/
def EndsWith (L : LongType) (n k : Nat) (v : Int) : Prop :=
  ∃ s : System (Fin n ⊕ Fin n) model Unit Int (.noop Unit),
    (spawned L (.noop Unit) n k).Reaches s ∧ s.Final ∧ s.contexts () = v

theorem endsWith_of_workers {v : Int}
    (ends : (Workers.start (fun t => (threads n k t).map (apply L)) 0).Reaches
      { phases := fun _ => .ended, value := v }) : EndsWith L n k v := by
  let contexts : Unit → Int := fun _ => 0
  have ends : (Workers.start (fun t => (threads n k t).map (apply L)) (contexts ())).Reaches
      { phases := fun _ => .ended, value := v } := ends
  obtain ⟨s, reached, represents⟩ := Workers.to_reached ends
  exact ⟨s, reached, represents.ended.mpr fun _ => rfl, represents.value⟩

variable (low : L.InRange (-((n * k : Nat) : Int))) (high : L.InRange (n * k : Nat))

include low high

/-- The last command of `first` reads before the first commands of `second` and writes after them. -/
theorem endsWith_of_lost {first second : List ((Fin n ⊕ Fin n) × Command)} (nonempty : first ≠ [])
    (each : ∀ t, JobCode.jobsOf (first ++ second) t = threads n k t)
    (apart : ∀ e ∈ first, JobCode.jobsOf second e.1 = []) (j : Nat) :
    EndsWith L n k
      ((first.map fun e => change e.2).sum + ((second.drop j).map fun e => change e.2).sum) := by
  let call (e : (Fin n ⊕ Fin n) × Command) := (e.1, apply L e.2)
  obtain ⟨before, ⟨t, cmd⟩, last⟩ := first.eq_nil_or_concat.resolve_left nonempty
  rw [List.concat_eq_append] at last
  subst last
  have away : JobCode.jobsOf ((second.take j).map call) t = [] := by
    have nothing := JobCode.jobsOf_sublist (List.take_sublist j second) t
    rw [apart (t, cmd) (by simp)] at nothing
    rw [JobCode.jobsOf_map, List.sublist_nil.mp nothing]
    rfl
  have calls (u : Fin n ⊕ Fin n) :
      JobCode.jobsOf (before.map call ++ (t, apply L cmd) ::
        ((second.take j).map call ++ (second.drop j).map call)) u =
        (threads n k u).map (apply L) := by
    rw [← each u, ← JobCode.jobsOf_map, ← List.map_append, List.take_append_drop, List.append_assoc,
      List.map_append, List.map_append]
    rfl
  have part (u : Fin n ⊕ Fin n) :
      (JobCode.jobsOf (before ++ [(t, cmd)] ++ second.drop j) u).Sublist (threads n k u) := by
    rw [← each u]
    exact JobCode.jobsOf_sublist
      ((List.Sublist.refl (before ++ [(t, cmd)])).append (List.drop_sublist j second)) u
  have value := serial_part low high part
  have ends := Workers.reaches_erased 0 _ _ _ (readsThenWrites_apply L cmd) away calls
  have order : before.map call ++ (t, apply L cmd) :: (second.drop j).map call =
      (before ++ [(t, cmd)] ++ second.drop j).map call := by
    rw [List.append_assoc, List.map_append, List.map_append]
    rfl
  rw [order, value, List.map_append, List.sum_append] at ends
  exact endsWith_of_workers ends

/-- The threads can also take turns without any loss. -/
theorem endsWith_zero : EndsWith L n k 0 := by
  let call (e : (Fin n ⊕ Fin n) × Command) := (e.1, apply L e.2)
  have each (t : Fin n ⊕ Fin n) : JobCode.jobsOf ((incs n k ++ decs n k).map call) t =
      (threads n k t).map (apply L) := by
    rw [← jobsOf_incs_append_decs t, ← JobCode.jobsOf_map]
  have part (t : Fin n ⊕ Fin n) :
      (JobCode.jobsOf (incs n k ++ decs n k) t).Sublist (threads n k t) := by
    rw [jobsOf_incs_append_decs t]
  have ends := Workers.reaches_in_order 0 ((incs n k ++ decs n k).map call) each
  rw [serial_part low high part, sum_change_threads jobsOf_incs_append_decs] at ends
  exact endsWith_of_workers ends

theorem bounds_of_endsWith {v : Int} (ends : EndsWith L n k v) :
    -((n * k : Nat) : Int) ≤ v ∧ v ≤ (n * k : Nat) := by
  obtain ⟨s, reached, final, rfl⟩ := ends
  obtain ⟨w, represents, behind⟩ := Workers.of_reached reached
  have updates (t : Fin n ⊕ Fin n) :
      ∀ d ∈ (threads n k t).map (apply L), d.code.ReadsThenWrites := by
    intro d member
    obtain ⟨cmd, _, rfl⟩ := List.mem_map.mp member
    exact readsThenWrites_apply L cmd
  obtain ⟨log, value, each⟩ :=
    Workers.salvaged_of_ended updates behind (represents.ended.mp final)
  have described (t : Fin n ⊕ Fin n) : ∃ kept : List Command, kept.Sublist (threads n k t) ∧
      JobCode.jobsOf log t = kept.map (apply L) :=
    List.sublist_map_iff.mp (each t)
  choose kept part jobs using described
  obtain ⟨issued, read, issuedOf⟩ := JobCode.log_of_jobs (apply_injective L) jobs
  have parts (t : Fin n ⊕ Fin n) : (JobCode.jobsOf issued t).Sublist (threads n k t) := by
    rw [issuedOf t]
    exact part t
  rw [represents.value, ← value, read]
  have total := serial_part low high parts
  rw [total]
  exact sum_change_part parts

theorem endsWith_of_bounds {v : Int} (atLeast : -((n * k : Nat) : Int) ≤ v)
    (atMost : v ≤ (n * k : Nat)) : EndsWith L n k v := by
  rcases lt_trichotomy v 0 with negative | rfl | positive
  · have first : decs n k ≠ [] := by
      intro nothing
      have count := length_decs (n := n) (k := k)
      rw [nothing, List.length_nil] at count
      omega
    have ends := endsWith_of_lost low high first jobsOf_decs_append_incs decs_apart (-v).toNat
    rw [sum_change_decs (List.Sublist.refl _), sum_change_incs (List.drop_sublist _ _),
      List.length_drop, length_decs, length_incs] at ends
    have total : -((n * k : Nat) : Int) + ((n * k - (-v).toNat : Nat) : Int) = v := by omega
    rw [← total]
    exact ends
  · exact endsWith_zero low high
  · have first : incs n k ≠ [] := by
      intro nothing
      have count := length_incs (n := n) (k := k)
      rw [nothing, List.length_nil] at count
      omega
    have ends := endsWith_of_lost low high first jobsOf_incs_append_decs incs_apart v.toNat
    rw [sum_change_incs (List.Sublist.refl _), sum_change_decs (List.drop_sublist _ _),
      List.length_drop, length_decs, length_incs] at ends
    have total : ((n * k : Nat) : Int) + -((n * k - v.toNat : Nat) : Int) = v := by omega
    rw [← total]
    exact ends

end Outcomes

/-- With the hooks that the header defines by default, which do nothing, the demo can end with exactly the
    numbers between the total of its decrements and that of its increments. -/
theorem unlocked_demo_outcomes (L : LongType) (n k : Nat) (low : L.InRange (-((n * k : Nat) : Int)))
    (high : L.InRange (n * k : Nat)) (v : Int) :
    EndsWith L n k v ↔ -((n * k : Nat) : Int) ≤ v ∧ v ≤ (n * k : Nat) := by
  constructor
  · intro ends
    exact bounds_of_endsWith low high ends
  · rintro ⟨atLeast, atMost⟩
    exact endsWith_of_bounds low high atLeast atMost

/-- Without the mutex the demo as it is may keep all its increments and lose all its decrements. -/
theorem unlocked_demo_outcomes_main : EndsWith long64 4 ITER_PER_THREAD 400000 :=
  (unlocked_demo_outcomes long64 4 ITER_PER_THREAD (by decide) (by decide) 400000).mpr (by decide)

end ThreadsafeDispatchDemo

end GenericSumType

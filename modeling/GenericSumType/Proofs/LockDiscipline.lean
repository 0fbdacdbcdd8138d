/-
Module: GenericSumType.Proofs.LockDiscipline
Layer: Proofs
Purpose: The lock hooks of `DISPATCH` under arbitrarily nested dispatches of one thread.  `Shape` says
  which call chains occur, `Move` says once what a step can do on them, and the stack of held contexts
  read off the call chain is the invariant that ties the trace and the locks to it.
Imports: GenericSumType.Semantics.NestedDispatch, GenericSumType.Proofs.Alignment,
  GenericSumType.Library.Brackets
Trusted boundary: none
Main exports: Shape, Move, Shape.outcome, Shape.move_of_step, bracketed_of_reached, tracked_of_reached,
  returns_or_blocks, lock_discipline
Open obligations: none
-/
import GenericSumType.Semantics.NestedDispatch
import GenericSumType.Proofs.Alignment
import GenericSumType.Library.Brackets

namespace GenericSumType

variable {B : Type} {M : TypeModel B} {C V : Type}

/-! ### The switch of an active call -/

namespace ActiveCall

variable {d : ActiveCall M C V}

theorem select_corrupt {tag : Int} {as : RawUnion M}
    {outside : ∀ i : Fin d.U.size, tag ≠ ((i : Nat) : Int)} (self : d.self = .corrupt tag as outside) :
    d.U.dispatchFn.select d.U.decl d.self.raw.tag = none := by
  rw [self]
  exact d.U.aligned_dispatch.select_invalid outside

theorem select_holds {c : Coproduct (d.U.Payload M)} (self : d.self = .holds c) :
    d.U.dispatchFn.select d.U.decl d.self.raw.tag =
      some (sumDispatchCase d.U.NAME (d.U.VOID, d.U.CTX_TYPE) (d.U.variant c.1)) := by
  rw [self]
  exact d.U.aligned_dispatch.select_active c.1

/-- The case of the active variant calls the code passed for it, on the current payload. -/
theorem handlerCode_holds [DecidableEq B] {c : Coproduct (d.U.Payload M)} (self : d.self = .holds c) :
    d.handlerCode (sumDispatchCase d.U.NAME (d.U.VOID, d.U.CTX_TYPE) (d.U.variant c.1)).body =
      .ok (d.handlers c.1 c.2) := by
  have raw : d.self.raw = d.U.encode M c := by
    rw [self]
    rfl
  have passed := d.U.arguments_getElem (R := fun _ => Prog M C V)
    (fun i (_ : Unit) x => ((), x, d.handlers i x)) c.1
  have called := d.U.aligned_dispatch.callHandler_encode passed rfl c.2
    (s := { world := (), self := d.self.raw, calls := [] }) raw
  unfold handlerCode
  simp only [sumDispatchCase, called, ok_bind]
  rfl

end ActiveCall

/-! ### The call chain -/

section Stack

/-- The contexts whose dispatch is somewhere on the call chain. -/
def Frame.activeCtx : Frame M C V → List C
  | .body d _ => [d.ctx]
  | .code _ _ => []

/-- The context that a frame holds: its lock was taken and not released yet. -/
def Frame.heldCtx : Frame M C V → List C
  | .body d [.switch, .unlock] | .body d [.unlock] => [d.ctx]
  | _ => []

/-- The context of a dispatch that has still to take its lock. -/
def Frame.waitingCtx : Frame M C V → List C
  | .body d [.lock, .switch, .unlock] => [d.ctx]
  | _ => []

def activeCtxs (stack : List (Frame M C V)) : List C := stack.flatMap Frame.activeCtx
def heldCtxs (stack : List (Frame M C V)) : List C := stack.flatMap Frame.heldCtx
def waitingCtxs (stack : List (Frame M C V)) : List C := stack.flatMap Frame.waitingCtx

/-- What lies under the code of a handler: the switch of its dispatch, already entered, and under that
    the code that made the dispatch. -/
inductive Under : Option C → List (Frame M C V) → Prop where
  | caller : Under none []
  | handler {d : ActiveCall M C V} {owner : Option C} {p : Prog M C V} {rest : List (Frame M C V)}
      (below : Under owner rest) : Under (some d.ctx) (.body d [.unlock] :: .code owner p :: rest)

/-- The call chains that occur. -/
inductive Shape : List (Frame M C V) → Prop where
  | finished : Shape []
  | code {owner : Option C} {p : Prog M C V} {rest : List (Frame M C V)} (below : Under owner rest) :
      Shape (.code owner p :: rest)
  | body {d : ActiveCall M C V} {owner : Option C} {p : Prog M C V} {rest : List (Frame M C V)}
      {left : List BodyStmt} (suffix : left ∈ [[.lock, .switch, .unlock], [.switch, .unlock],
        [.unlock], []]) (below : Under owner rest) :
      Shape (.body d left :: .code owner p :: rest)

theorem Under.shape {owner : Option C} {rest : List (Frame M C V)} (below : Under owner rest) :
    Shape rest := by
  cases below with
  | caller => exact .finished
  | handler below => exact .body (by simp) below

/-- Under running code every dispatch holds its lock. -/
theorem Under.held_eq_active {owner : Option C} {rest : List (Frame M C V)}
    (below : Under owner rest) : heldCtxs rest = activeCtxs rest := by
  induction below with
  | caller => rfl
  | @handler d owner p rest _ ih => exact congrArg (d.ctx :: ·) ih

/-- The dispatch that runs a handler holds its context. -/
theorem Under.owner_held {c : C} {rest : List (Frame M C V)} (below : Under (some c) rest) :
    c ∈ heldCtxs rest := by
  cases below with
  | handler _ => exact List.mem_cons_self

end Stack

/-! ### What a step does -/

variable [DecidableEq B] [DecidableEq C] {L : LockModel C}

/-- The steps of a machine whose call chain has the right shape. -/
inductive Move (m : Machine M C V L) : Machine M C V L → Prop where
  | returned {owner : Option C} {rest : List (Frame M C V)}
      (top : m.stack = .code owner .done :: rest) (below : Under owner rest) :
      Move m { m with stack := rest }
  | updated {owner : Option C} {target : C} {f : V → V} {k : V → Prog M C V}
      {rest : List (Frame M C V)} (top : m.stack = .code owner (.update target f k) :: rest)
      (below : Under owner rest) :
      Move m
        { m with
          stack := .code owner (k (m.contexts target)) :: rest
          contexts := Function.update m.contexts target (f (m.contexts target))
          trace := m.trace ++ [.act owner target] }
  | entered {owner : Option C} {d : ActiveCall M C V} {k : Prog M C V} {rest : List (Frame M C V)}
      (top : m.stack = .code owner (.dispatch d.U d.self d.ctx d.handlers k) :: rest)
      (below : Under owner rest) :
      Move m
        { m with
          stack := .body d [.lock, .switch, .unlock] :: .code owner k :: rest
          trace := m.trace ++ [.enter d.ctx] }
  | locked {owner : Option C} {d : ActiveCall M C V} {p : Prog M C V} {rest : List (Frame M C V)}
      {locks : L.State} (top : m.stack = .body d [.lock, .switch, .unlock] :: .code owner p :: rest)
      (below : Under owner rest) (taken : L.acquire d.ctx m.locks = some locks) :
      Move m
        { m with
          stack := .body d [.switch, .unlock] :: .code owner p :: rest
          locks := locks
          trace := m.trace ++ [.lock d.ctx] }
  /-- no case of the switch has the tag -/
  | skipped {owner : Option C} {d : ActiveCall M C V} {p : Prog M C V} {rest : List (Frame M C V)}
      {tag : Int} {as : RawUnion M} {outside : ∀ i : Fin d.U.size, tag ≠ ((i : Nat) : Int)}
      (top : m.stack = .body d [.switch, .unlock] :: .code owner p :: rest)
      (below : Under owner rest) (self : d.self = .corrupt tag as outside) :
      Move m { m with stack := .body d [.unlock] :: .code owner p :: rest }
  | called {owner : Option C} {d : ActiveCall M C V} {p : Prog M C V} {rest : List (Frame M C V)}
      {c : Coproduct (d.U.Payload M)}
      (top : m.stack = .body d [.switch, .unlock] :: .code owner p :: rest)
      (below : Under owner rest) (self : d.self = .holds c) :
      Move m
        { m with
          stack := .code (some d.ctx) (d.handlers c.1 c.2) :: .body d [.unlock] ::
            .code owner p :: rest }
  | unlocked {owner : Option C} {d : ActiveCall M C V} {p : Prog M C V} {rest : List (Frame M C V)}
      (top : m.stack = .body d [.unlock] :: .code owner p :: rest) (below : Under owner rest) :
      Move m
        { m with
          stack := .body d [] :: .code owner p :: rest
          locks := L.release d.ctx m.locks
          trace := m.trace ++ [.unlock d.ctx] }
  | left {owner : Option C} {d : ActiveCall M C V} {p : Prog M C V} {rest : List (Frame M C V)}
      (top : m.stack = .body d [] :: .code owner p :: rest) (below : Under owner rest) :
      Move m { m with stack := .code owner p :: rest }

/-- Every move is the step of the machine. -/
theorem Move.step {m m' : Machine M C V L} (move : Move m m') : m.Step m' := by
  cases move with
  | returned top _ => simp only [Machine.Step, Machine.next, top]
  | updated top _ => simp only [Machine.Step, Machine.next, top]
  | entered top _ =>
      simp only [Machine.Step, Machine.next, top]
      rfl
  | locked top _ taken => simp only [Machine.Step, Machine.next, top, taken]
  | skipped top _ self =>
      simp only [Machine.Step, Machine.next, top, ActiveCall.select_corrupt self]
  | called top _ self =>
      simp only [Machine.Step, Machine.next, top, ActiveCall.select_holds self,
        ActiveCall.handlerCode_holds self]
      rfl
  | unlocked top _ => simp only [Machine.Step, Machine.next, top]
  | left top _ => simp only [Machine.Step, Machine.next, top]

/-- The machine is deterministic. -/
theorem Machine.Step.unique {m m' m'' : Machine M C V L} (first : m.Step m') (second : m.Step m'') :
    m' = m'' := by
  have same : Next.step m' = Next.step m'' := first.symm.trans second
  exact Next.step.inj same

/-- What a machine of the right shape does next: it has finished, it waits right at the lock of a dispatch,
    or it moves. -/
inductive Outcome (m : Machine M C V L) : Next M C V L → Prop where
  | finished (empty : m.stack = []) : Outcome m .finished
  | blocked {d : ActiveCall M C V} {owner : Option C} {p : Prog M C V} {rest : List (Frame M C V)}
      (top : m.stack = .body d [.lock, .switch, .unlock] :: .code owner p :: rest)
      (below : Under owner rest) (refused : L.acquire d.ctx m.locks = none) : Outcome m .blocked
  | step {m' : Machine M C V L} (move : Move m m') : Outcome m (.step m')

theorem Move.outcome {m m' : Machine M C V L} (move : Move m m') : Outcome m m.next := by
  have stepped : m.next = .step m' := move.step
  rw [stepped]
  exact .step move

theorem Shape.outcome {m : Machine M C V L} (shape : Shape m.stack) : Outcome m m.next := by
  generalize top : m.stack = stack at shape
  cases shape with
  | finished =>
      have ended : m.next = .finished := by simp only [Machine.next, top]
      rw [ended]
      exact .finished top
  | @code owner p rest below =>
      cases p with
      | done => exact (Move.returned top below).outcome
      | update target f k => exact (Move.updated top below).outcome
      | dispatch U self ctx handlers k =>
          let d : ActiveCall M C V := { U := U, self := self, ctx := ctx, handlers := handlers }
          exact (Move.entered (d := d) top below).outcome
  | @body d owner p rest left suffix below =>
      simp only [List.mem_cons, List.not_mem_nil, or_false] at suffix
      rcases suffix with rfl | rfl | rfl | rfl
      · cases taken : L.acquire d.ctx m.locks with
        | none =>
            have stuck : m.next = .blocked := by simp only [Machine.next, top, taken]
            rw [stuck]
            exact .blocked top below taken
        | some locks => exact (Move.locked top below taken).outcome
      · cases self : d.self with
        | holds c => exact (Move.called top below self).outcome
        | corrupt tag as outside => exact (Move.skipped top below self).outcome
      · exact (Move.unlocked top below).outcome
      · exact (Move.left top below).outcome

/-- On call chains of the right shape the steps are the moves. -/
theorem Shape.move_of_step {m m' : Machine M C V L} (shape : Shape m.stack) (step : m.Step m') :
    Move m m' := by
  have outcome := shape.outcome
  rw [step] at outcome
  cases outcome with
  | step move => exact move

/-- No generated statement faults. -/
theorem no_fault {m : Machine M C V L} (shape : Shape m.stack) (e : Fault) : m.next ≠ .fault e := by
  intro faulty
  have outcome := shape.outcome
  rw [faulty] at outcome
  cases outcome

theorem stack_of_finished {m : Machine M C V L} (shape : Shape m.stack) (ended : m.next = .finished) :
    m.stack = [] := by
  have outcome := shape.outcome
  rw [ended] at outcome
  cases outcome with
  | finished empty => exact empty

/-- A run that blocks does so right at the lock of a dispatch. -/
theorem top_of_blocked {m : Machine M C V L} (shape : Shape m.stack) (stuck : m.next = .blocked) :
    ∃ d owner p rest, m.stack = .body d [.lock, .switch, .unlock] :: .code owner p :: rest ∧
      Under owner rest ∧ L.acquire d.ctx m.locks = none := by
  have outcome := shape.outcome
  rw [stuck] at outcome
  cases outcome with
  | @blocked d owner p rest top below refused => exact ⟨d, owner, p, rest, top, below, refused⟩

/-- A machine that has something left to do and does not step waits at the lock of a dispatch. -/
theorem top_of_stuck {m : Machine M C V L} (shape : Shape m.stack) (busy : m.stack ≠ [])
    (stuck : ∀ m', ¬m.Step m') :
    ∃ d owner p rest, m.stack = .body d [.lock, .switch, .unlock] :: .code owner p :: rest ∧
      Under owner rest ∧ L.acquire d.ctx m.locks = none := by
  cases next : m.next with
  | finished => exact absurd (stack_of_finished shape next) busy
  | blocked => exact top_of_blocked shape next
  | fault e => exact absurd next (no_fault shape e)
  | step m' => exact absurd next (stuck m')

omit [DecidableEq B] in
theorem Move.shape {m m' : Machine M C V L} (move : Move m m') : Shape m'.stack := by
  cases move with
  | returned _ below => exact below.shape
  | updated _ below => exact .code below
  | entered _ below => exact .body (by simp) below
  | locked _ below _ => exact .body (by simp) below
  | skipped _ below _ => exact .body (by simp) below
  | called _ below _ => exact .code (.handler below)
  | unlocked _ below => exact .body (by simp) below
  | left _ below => exact .code below

/-- What the start has and every move keeps, every machine reached from the start has. -/
theorem invariant_of_reached {Inv : Machine M C V L → Prop} {p : Prog M C V} {contexts : C → V}
    (initial : Inv (.start p contexts)) (kept : ∀ m m', Move m m' → Inv m → Inv m')
    {m : Machine M C V L} (reached : (Machine.start p contexts).Reaches m) :
    Shape m.stack ∧ Inv m := by
  refine @StepMachine.invariant_of_reachable _ Machine.Step (fun m => Shape m.stack ∧ Inv m) ?_ _ _
    ⟨.code .caller, initial⟩ reached
  intro m m' inv step
  have move := inv.1.move_of_step step
  exact ⟨move.shape, kept m m' move inv.2⟩

theorem shape_of_reached {p : Prog M C V} {contexts : C → V} {m : Machine M C V L}
    (reached : (Machine.start p contexts).Reaches m) : Shape m.stack := by
  have both : Shape m.stack ∧ True :=
    invariant_of_reached trivial (fun _ _ _ _ => trivial) reached
  exact both.1

/-! ### The trace -/

open Brackets in
/-- How an event counts as a bracket. -/
def Event.mark : Event C → Mark C
  | .enter _ => .neutral
  | .lock c => .opens c
  | .unlock c => .closes c
  | .act (some owner) _ => .within owner
  | .act none _ => .neutral

theorem count_opens (trace : List (Event C)) (c : C) :
    (trace.map Event.mark).count (.opens c) = trace.count (.lock c) := by
  induction trace with
  | nil => rfl
  | cons e trace ih =>
      rcases e with _ | _ | _ | ⟨_ | _, _⟩ <;> simp [Event.mark, List.count_cons, ih]

theorem count_closes (trace : List (Event C)) (c : C) :
    (trace.map Event.mark).count (.closes c) = trace.count (.unlock c) := by
  induction trace with
  | nil => rfl
  | cons e trace ih =>
      rcases e with _ | _ | _ | ⟨_ | _, _⟩ <;> simp [Event.mark, List.count_cons, ih]

/-- The stack reading of the trace gives the contexts held on the call chain, and every dispatch that
    was entered has locked, but for those that wait. -/
structure Bracketed (m : Machine M C V L) : Prop where
  scanned : Brackets.scan [] (m.trace.map Event.mark) = some (heldCtxs m.stack)
  entered : ∀ c, m.trace.count (.enter c) =
    m.trace.count (.lock c) + (waitingCtxs m.stack).count c

omit [DecidableEq B] in
theorem Bracketed.move {m m' : Machine M C V L} (bracketed : Bracketed m) (move : Move m m') :
    Bracketed m' := by
  rcases bracketed with ⟨scanned, entered⟩
  cases move with
  | returned top _ =>
      rw [top] at scanned entered
      exact ⟨scanned, entered⟩
  | @updated owner target f k rest top below =>
      rw [top] at scanned entered
      constructor
      · rw [List.map_append, List.map_singleton, Brackets.scan_concat scanned]
        cases owner with
        | none => rfl
        | some c => exact if_pos below.owner_held
      · intro c
        have waits := entered c
        simp only [waitingCtxs, List.flatMap_cons, Frame.waitingCtx] at waits
        simpa [waitingCtxs, Frame.waitingCtx] using waits
  | @entered owner d k rest top below =>
      rw [top] at scanned entered
      constructor
      · rw [List.map_append, List.map_singleton, Brackets.scan_concat scanned]
        rfl
      · intro c
        have waits := entered c
        simp only [waitingCtxs, List.flatMap_cons, Frame.waitingCtx, List.nil_append] at waits
        simp only [waitingCtxs, List.flatMap_cons, Frame.waitingCtx, List.count_append,
          List.nil_append]
        by_cases same : d.ctx = c
        · subst c
          simp
          omega
        · simpa [same] using waits
  | @locked owner d p rest locks top below taken =>
      rw [top] at scanned entered
      constructor
      · rw [List.map_append, List.map_singleton, Brackets.scan_concat scanned]
        rfl
      · intro c
        have waits := entered c
        simp only [waitingCtxs, List.flatMap_cons, Frame.waitingCtx, List.count_append,
          List.nil_append] at waits
        simp only [waitingCtxs, List.flatMap_cons, Frame.waitingCtx, List.count_append,
          List.nil_append]
        by_cases same : d.ctx = c
        · subst c
          simp at waits ⊢
          omega
        · simpa [same] using waits
  | skipped top _ _ =>
      rw [top] at scanned entered
      exact ⟨scanned, entered⟩
  | called top _ _ =>
      rw [top] at scanned entered
      exact ⟨scanned, entered⟩
  | @unlocked owner d p rest top below =>
      rw [top] at scanned entered
      constructor
      · rw [List.map_append, List.map_singleton, Brackets.scan_concat scanned]
        exact if_pos rfl
      · intro c
        have waits := entered c
        simp only [waitingCtxs, List.flatMap_cons, Frame.waitingCtx] at waits
        simpa [waitingCtxs, Frame.waitingCtx] using waits
  | left top _ =>
      rw [top] at scanned entered
      exact ⟨scanned, entered⟩

theorem bracketed_of_reached {p : Prog M C V} {contexts : C → V} {m : Machine M C V L}
    (reached : (Machine.start p contexts).Reaches m) : Bracketed m := by
  refine (invariant_of_reached ?_ ?_ reached).2
  · exact ⟨rfl, fun c => rfl⟩
  · intro m m' move bracketed
    exact bracketed.move move

/-! ### The locks -/

omit [DecidableEq B] [DecidableEq C] in
theorem Move.tracks [DecidableEq C] (T : L.Tracking) {m m' : Machine M C V L}
    (tracks : T.Tracks m.locks (heldCtxs m.stack)) (move : Move m m') :
    T.Tracks m'.locks (heldCtxs m'.stack) := by
  cases move with
  | locked top _ taken =>
      rw [top] at tracks
      exact T.acquired tracks taken
  | unlocked top _ =>
      rw [top] at tracks
      exact T.released tracks
  | returned top _ => rw [top] at tracks; exact tracks
  | updated top _ => rw [top] at tracks; exact tracks
  | entered top _ => rw [top] at tracks; exact tracks
  | skipped top _ _ => rw [top] at tracks; exact tracks
  | called top _ _ => rw [top] at tracks; exact tracks
  | left top _ => rw [top] at tracks; exact tracks

theorem tracked_of_reached (T : L.Tracking) {p : Prog M C V} {contexts : C → V}
    {m : Machine M C V L} (reached : (Machine.start p contexts).Reaches m) :
    T.Tracks m.locks (heldCtxs m.stack) := by
  have both := @invariant_of_reached _ _ _ _ _ _ L (fun m => T.Tracks m.locks (heldCtxs m.stack))
    p contexts T.free (fun m m' move tracks => move.tracks T tracks) m reached
  exact both.2

/-! ### Every run ends -/

/-- Code that starts running returns to what lies under it, unless the run blocks on the way.  The
    induction is on the program: a handler returns before the dispatch that called it does. -/
theorem returns_or_blocks (p : Prog M C V) {owner : Option C} {rest : List (Frame M C V)}
    (below : Under owner rest) {m : Machine M C V L} (top : m.stack = .code owner p :: rest) :
    ∃ m', m.Reaches m' ∧ (m'.stack = rest ∨ m'.next = .blocked) := by
  induction p generalizing owner rest m with
  | done =>
      exact ⟨_, .single (Move.returned top below).step, Or.inl rfl⟩
  | update target f k ih =>
      obtain ⟨m₁, update, behind⟩ : ∃ m₁, m.Step m₁ ∧
          m₁.stack = .code owner (k (m.contexts target)) :: rest :=
        ⟨_, (Move.updated top below).step, rfl⟩
      obtain ⟨m', later, ends⟩ := ih (m.contexts target) below behind
      exact ⟨m', .head update later, ends⟩
  | dispatch U self ctx handlers k ihHandlers ihNext =>
      let d : ActiveCall M C V := { U := U, self := self, ctx := ctx, handlers := handlers }
      obtain ⟨m₁, enter, atLock⟩ : ∃ m₁, m.Step m₁ ∧
          m₁.stack = .body d [.lock, .switch, .unlock] :: .code owner k :: rest :=
        ⟨_, (Move.entered (d := d) top below).step, rfl⟩
      cases taken : L.acquire d.ctx m₁.locks with
      | none =>
          refine ⟨m₁, .single enter, Or.inr ?_⟩
          simp only [Machine.next, atLock, taken]
      | some locks =>
          obtain ⟨m₂, lock, atSwitch⟩ : ∃ m₂, m₁.Step m₂ ∧
              m₂.stack = .body d [.switch, .unlock] :: .code owner k :: rest :=
            ⟨_, (Move.locked atLock below taken).step, rfl⟩
          have toSwitch : m.Reaches m₂ := .tail (.single enter) lock
          -- from the end of the switch the run releases the lock and goes on behind the call
          have behindSwitch : ∀ m₃ : Machine M C V L, m.Reaches m₃ →
              m₃.stack = .body d [.unlock] :: .code owner k :: rest →
              ∃ m', m.Reaches m' ∧ (m'.stack = rest ∨ m'.next = .blocked) := by
            intro m₃ reached atUnlock
            obtain ⟨m₄, unlock, atEnd⟩ : ∃ m₄, m₃.Step m₄ ∧
                m₄.stack = .body d [] :: .code owner k :: rest :=
              ⟨_, (Move.unlocked atUnlock below).step, rfl⟩
            obtain ⟨m₅, leave, behind⟩ : ∃ m₅, m₄.Step m₅ ∧ m₅.stack = .code owner k :: rest :=
              ⟨_, (Move.left atEnd below).step, rfl⟩
            obtain ⟨m', later, ends⟩ := ihNext below behind
            exact ⟨m', ((reached.tail unlock).tail leave).trans later, ends⟩
          cases held : d.self with
          | corrupt tag as outside =>
              obtain ⟨m₃, skip, atUnlock⟩ : ∃ m₃, m₂.Step m₃ ∧
                  m₃.stack = .body d [.unlock] :: .code owner k :: rest :=
                ⟨_, (Move.skipped atSwitch below held).step, rfl⟩
              exact behindSwitch m₃ (toSwitch.tail skip) atUnlock
          | holds c =>
              obtain ⟨m₃, call, atHandler⟩ : ∃ m₃, m₂.Step m₃ ∧
                  m₃.stack = .code (some d.ctx) (handlers c.1 c.2) :: .body d [.unlock] ::
                    .code owner k :: rest :=
                ⟨_, (Move.called atSwitch below held).step, rfl⟩
              have reached : m.Reaches m₃ := toSwitch.tail call
              obtain ⟨m', later, returned | stuck⟩ := ihHandlers c.1 c.2 (.handler below) atHandler
              · exact behindSwitch m' (reached.trans later) returned
              · exact ⟨m', reached.trans later, Or.inr stuck⟩

/-- Every run ends, and if it does not finish it is blocked. -/
theorem finishes_or_blocks (p : Prog M C V) (contexts : C → V) :
    ∃ m : Machine M C V L, (Machine.start p contexts).Reaches m ∧
      (m.next = .finished ∨ m.next = .blocked) := by
  obtain ⟨m, reached, ended | stuck⟩ :=
    returns_or_blocks (L := L) p .caller (m := .start p contexts) rfl
  · refine ⟨m, reached, Or.inl ?_⟩
    simp only [Machine.next, ended]
  · exact ⟨m, reached, Or.inr stuck⟩

/-! ### Re-entrant dispatches -/

/-- The machine is about to dispatch on a context for which a dispatch is active further up the call
    chain. -/
def Reenters (m : Machine M C V L) : Prop :=
  ∃ owner U self ctx handlers k rest,
    m.stack = .code owner (.dispatch U self ctx handlers k) :: rest ∧ ctx ∈ activeCtxs rest

omit [DecidableEq B] [DecidableEq C] in
/-- A dispatch that has not locked yet was entered in the last step. -/
theorem Move.entered_of_top [DecidableEq C] {m m' : Machine M C V L} (move : Move m m')
    {d : ActiveCall M C V} {owner : Option C} {p : Prog M C V} {rest : List (Frame M C V)}
    (top : m'.stack = .body d [.lock, .switch, .unlock] :: .code owner p :: rest) :
    m.stack = .code owner (.dispatch d.U d.self d.ctx d.handlers p) :: rest := by
  cases move with
  | @entered owner' d' k rest' before below =>
      simp only [List.cons.injEq, Frame.body.injEq, Frame.code.injEq, and_true] at top
      rcases top with ⟨rfl, ⟨rfl, rfl⟩, rfl⟩
      exact before
  | returned before below =>
      cases below with
      | caller => cases top
      | handler below => simp at top
  | _ => simp at top

/-- With a mutex, the dispatch that follows is refused exactly when its context is active. -/
theorem blocked_iff_reenters {p : Prog M C V} {contexts : C → V} :
    (∃ m : Machine M C V (.mutex C), (Machine.start p contexts).Reaches m ∧ m.next = .blocked) ↔
      ∃ m : Machine M C V (.mutex C), (Machine.start p contexts).Reaches m ∧ Reenters m := by
  constructor
  · rintro ⟨m, reached, stuck⟩
    obtain ⟨d, owner, k, rest, top, below, refused⟩ :=
      top_of_blocked (shape_of_reached reached) stuck
    have onStack : d.ctx ∈ activeCtxs rest := by
      have tracks := tracked_of_reached LockModel.mutexTracking reached
      have held := (tracks.2 d.ctx).mp (LockModel.acquireMutex_eq_none_iff.mp refused)
      rw [top] at held
      rw [← below.held_eq_active]
      exact held
    rcases Relation.ReflTransGen.cases_tail reached with start | ⟨m₀, before, last⟩
    · rw [start] at top
      simp [Machine.start] at top
    · have entered := ((shape_of_reached before).move_of_step last).entered_of_top top
      exact ⟨m₀, before, owner, d.U, d.self, d.ctx, d.handlers, k, rest, entered, onStack⟩
  · rintro ⟨m, reached, owner, U, self, ctx, handlers, k, rest, top, active⟩
    have shape := shape_of_reached reached
    rw [top] at shape
    cases shape with
    | code below =>
        let d : ActiveCall M C V := { U := U, self := self, ctx := ctx, handlers := handlers }
        obtain ⟨m₁, enter, atLock⟩ : ∃ m₁, m.Step m₁ ∧
            m₁.stack = .body d [.lock, .switch, .unlock] :: .code owner k :: rest :=
          ⟨_, (Move.entered (d := d) top below).step, rfl⟩
        have entered : (Machine.start p contexts).Reaches m₁ := reached.tail enter
        have tracks := tracked_of_reached LockModel.mutexTracking entered
        have held : ctx ∈ heldCtxs m₁.stack := by
          rw [atLock]
          rw [← below.held_eq_active] at active
          exact active
        have refused : (LockModel.mutex C).acquire d.ctx m₁.locks = none :=
          LockModel.acquireMutex_eq_none_iff.mpr ((tracks.2 ctx).mpr held)
        refine ⟨m₁, entered, ?_⟩
        simp only [Machine.next, atLock, refused]

/-- A recursive lock is never refused. -/
theorem recursive_not_blocked {m : Machine M C V (.recursive C)} (shape : Shape m.stack) :
    m.next ≠ .blocked := by
  intro stuck
  obtain ⟨d, _, _, _, _, _, refused⟩ := top_of_blocked shape stuck
  cases refused

/-! ### The discipline of the hooks -/

/-- For every program of nested dispatches, over any variant lists and any values.  Whatever the hooks
    do, the trace of a finished run is properly nested, every action of a handler lies inside the pair
    of its own dispatch, and each dispatch takes and releases its lock once.  With a mutex the run
    always ends, and it gets stuck exactly when it reaches a dispatch on a context that is active
    further up the call chain.  With a recursive lock it always finishes, with every lock free. -/
theorem lock_discipline (p : Prog M C V) (contexts : C → V) :
    (∀ (L : LockModel C) (m : Machine M C V L), (Machine.start p contexts).Reaches m →
      m.next = .finished →
        Brackets.Nested [] (m.trace.map Event.mark) ∧
        ∀ c, m.trace.count (.lock c) = m.trace.count (.enter c) ∧
          m.trace.count (.unlock c) = m.trace.count (.enter c)) ∧
    (∃ m : Machine M C V (.mutex C), (Machine.start p contexts).Reaches m ∧
      (m.next = .finished ∨ m.next = .blocked)) ∧
    ((∃ m : Machine M C V (.mutex C), (Machine.start p contexts).Reaches m ∧ m.next = .blocked) ↔
      ∃ m : Machine M C V (.mutex C), (Machine.start p contexts).Reaches m ∧ Reenters m) ∧
    (∀ m : Machine M C V (.recursive C), (Machine.start p contexts).Reaches m →
      m.next ≠ .blocked) ∧
    ∃ m : Machine M C V (.recursive C), (Machine.start p contexts).Reaches m ∧
      m.next = .finished ∧ m.locks = (LockModel.recursive C).free := by
  refine ⟨?_, finishes_or_blocks p contexts, blocked_iff_reenters,
    fun m reached => recursive_not_blocked (shape_of_reached reached), ?_⟩
  · intro L m reached ended
    have empty := stack_of_finished (shape_of_reached reached) ended
    have bracketed := bracketed_of_reached reached
    have scanned := bracketed.scanned
    rw [empty] at scanned
    refine ⟨Brackets.nested_of_scan scanned, ?_⟩
    intro c
    have locks : m.trace.count (.enter c) = m.trace.count (.lock c) := by
      have entered := bracketed.entered c
      rw [empty] at entered
      exact entered
    have balance := Brackets.scan_count scanned c
    rw [count_opens, count_closes] at balance
    simp only [List.count_nil, Nat.add_zero] at balance
    exact ⟨locks.symm, balance.symm.trans locks.symm⟩
  · obtain ⟨m, reached, ended | stuck⟩ :=
      finishes_or_blocks (L := .recursive C) p contexts
    · refine ⟨m, reached, ended, ?_⟩
      have empty := stack_of_finished (shape_of_reached reached) ended
      have tracks := tracked_of_reached LockModel.recursiveTracking reached
      rw [empty] at tracks
      funext c
      exact tracks c
    · exact absurd stuck (recursive_not_blocked (shape_of_reached reached))

end GenericSumType

import Mathlib.Tactic.Common

/-! Futures with continuations that name the scheduler they run on. A language lists the values a
future can hold, the requests it can wait for and its continuations, each a body together with the
place it runs at. `settle` is one thread running a chain of continuations until it must wait,
`sequential` reads the same chain as straight-line code, and the two are shown to agree whatever
threads run the pieces: where a continuation runs does not change what the chain computes. -/

namespace Futures

/-- Values, exceptions, requests and continuations of one program. A continuation in
`Continuation a b` is attached to a future of type `a` and yields one of type `b`. -/
structure Language where
  Ty : Type
  Value : Ty → Type
  Exn : Type
  Request : Type
  response : Ty
  Continuation : Ty → Ty → Type
  State : Type

variable {L : Language}

/-- Continuations attached one after another. -/
inductive Chain (L : Language) : L.Ty → L.Ty → Type where
  | nil {a : L.Ty} : Chain L a a
  | cons {a b c : L.Ty} (continuation : L.Continuation a b) (rest : Chain L b c) : Chain L a c

def Chain.append {a b c : L.Ty} : Chain L a b → Chain L b c → Chain L a c
  | .nil, after => after
  | .cons continuation rest, after => .cons continuation (rest.append after)

/-- The result of a future: a value, or the exception it is rejected with. -/
abbrev Outcome (L : Language) (a : L.Ty) : Type := Except L.Exn (L.Value a)

/-- What a continuation returns: a settled future, or a request with continuations attached. -/
inductive Future (L : Language) (b : L.Ty) where
  | settled (outcome : Outcome L b)
  | get (request : L.Request) (rest : Chain L L.response b)

inductive Place where
  | immediate
  | workerThread
  | mainThread
  deriving DecidableEq

/-- The body of a continuation. Only a main-thread continuation reads or writes the shared state. -/
inductive Body (L : Language) (a b : L.Ty) where
  | thenImmediately (f : L.Value a → Future L b)
  | thenInWorkerThread (f : L.Value a → Future L b)
  | thenInMainThread (f : L.Value a → L.State → Future L b × L.State)

namespace Body

def place {a b : L.Ty} : Body L a b → Place
  | .thenImmediately _ => .immediate
  | .thenInWorkerThread _ => .workerThread
  | .thenInMainThread _ => .mainThread

/-- A value continuation runs on a value; a rejection passes it by. -/
def run {a b : L.Ty} (body : Body L a b) : Outcome L a → L.State → Future L b × L.State
  | .error exn, state => (.settled (.error exn), state)
  | .ok value, state =>
      match body with
      | .thenImmediately f => (f value, state)
      | .thenInWorkerThread f => (f value, state)
      | .thenInMainThread f => f value state

theorem run_state {a b : L.Ty} {body : Body L a b} (hplace : body.place ≠ .mainThread)
    (outcome : Outcome L a) (state : L.State) : (body.run outcome state).2 = state := by
  cases outcome with
  | error exn => rfl
  | ok value =>
      cases body with
      | thenImmediately f => rfl
      | thenInWorkerThread f => rfl
      | thenInMainThread f => exact absurd rfl hplace

end Body

structure Semantics (L : Language) where
  body : {a b : L.Ty} → L.Continuation a b → Body L a b

/-- The schedulers a thread is currently dispatching. -/
structure Thread where
  dispatchesWorker : Bool
  dispatchesMain : Bool

namespace Thread

def worker : Thread := ⟨true, false⟩

def main (dispatchesMain : Bool) : Thread := ⟨false, dispatchesMain⟩

/-- A thread on which every continuation runs at once. -/
def everywhere : Thread := ⟨true, true⟩

def runs (thread : Thread) : Place → Bool
  | .immediate => true
  | .workerThread => thread.dispatchesWorker
  | .mainThread => thread.dispatchesMain

@[simp] theorem everywhere_runs (place : Place) : everywhere.runs place = true := by
  cases place <;> rfl

end Thread

/-- What a future waits for: nothing, the answer to a request, or the scheduler a task was handed
to. -/
inductive Pending (L : Language) (c : L.Ty) where
  | settled (outcome : Outcome L c)
  | get (request : L.Request) (rest : Chain L L.response c)
  | queued (place : Place) {a : L.Ty} (outcome : Outcome L a) (rest : Chain L a c)

def Future.pending {c : L.Ty} : Future L c → Pending L c
  | .settled outcome => .settled outcome
  | .get request rest => .get request rest

variable (S : Semantics L)

/-- One thread runs a chain of continuations until it must wait. -/
def settle (thread : Thread) {a c : L.Ty} (outcome : Outcome L a) (chain : Chain L a c)
    (state : L.State) : Pending L c × L.State :=
  match chain with
  | .nil => (.settled outcome, state)
  | .cons continuation rest =>
      if thread.runs (S.body continuation).place then
        match (S.body continuation).run outcome state with
        | (.settled next, after) => settle thread next rest after
        | (.get request attached, after) => (.get request (attached.append rest), after)
      else (.queued (S.body continuation).place outcome (.cons continuation rest), state)

/-- Run a task that was handed to a scheduler, with every later continuation at once. -/
def resume {c : L.Ty} : Pending L c × L.State → Pending L c × L.State
  | (.queued _ outcome rest, state) => settle S .everywhere outcome rest state
  | waiting => waiting

/-- Whatever thread runs a chain first, resuming what it leaves behind gives the same result. -/
theorem resume_settle (thread : Thread) {a c : L.Ty} (outcome : Outcome L a) (chain : Chain L a c)
    (state : L.State) :
    resume S (settle S thread outcome chain state) = settle S .everywhere outcome chain state := by
  induction chain generalizing state with
  | nil => rfl
  | cons continuation rest ih =>
      rw [settle]
      split_ifs with hruns
      · rw [settle, if_pos (Thread.everywhere_runs _)]
        rcases (S.body continuation).run outcome state with ⟨next | ⟨request, attached⟩, after⟩
        · exact ih next after
        · rfl
      · rfl

/-- A thread that does not dispatch the main thread's scheduler leaves the shared state alone. -/
theorem settle_state {thread : Thread} (hmain : thread.dispatchesMain = false) {a c : L.Ty}
    (outcome : Outcome L a) (chain : Chain L a c) (state : L.State) :
    (settle S thread outcome chain state).2 = state := by
  induction chain generalizing state with
  | nil => rfl
  | cons continuation rest ih =>
      rw [settle]
      split_ifs with hruns
      · have hplace : (S.body continuation).place ≠ .mainThread := by
          intro h
          rw [h, Thread.runs, hmain] at hruns
          exact absurd hruns (by decide)
        have hstate := Body.run_state hplace outcome state
        rcases h : (S.body continuation).run outcome state with ⟨next | ⟨request, attached⟩, after⟩
        · rw [h] at hstate
          subst hstate
          exact ih next _
        · rw [h] at hstate
          exact hstate
      · rfl

/-! ### The chain as straight-line code -/

variable (answers : Nat → L.Request → Outcome L L.response)

/-- The next answer, with every continuation it releases run at once. -/
def answerNext {c : L.Ty} (number : Nat) : Pending L c × L.State → Pending L c × L.State
  | (.get request rest, state) => settle S .everywhere (answers number request) rest state
  | waiting => waiting

/-- The future after its first `number` requests have been answered, everything run in order. -/
def sequential {c : L.Ty} (start : Pending L c × L.State) : Nat → Pending L c × L.State
  | 0 => resume S start
  | number + 1 => answerNext S answers number (sequential start number)

/-- A future's progress in a concurrent run: the answers it has had, what it waits for, and the
shared state. -/
structure Progress (L : Language) (c : L.Ty) where
  answered : Nat
  waiting : Pending L c
  state : L.State

/-- The concurrent run is where straight-line code is after as many answers. -/
def Agrees {c : L.Ty} (start : Pending L c × L.State) (progress : Progress L c) : Prop :=
  resume S (progress.waiting, progress.state) = sequential S answers start progress.answered

variable {S answers}

theorem Agrees.start {c : L.Ty} (start : Pending L c × L.State) :
    Agrees S answers start ⟨0, start.1, start.2⟩ := rfl

/-- Any thread may go on with the answer to a request. -/
theorem Agrees.answer {c : L.Ty} {start : Pending L c × L.State} {answered : Nat}
    {request : L.Request} {rest : Chain L L.response c} {state : L.State}
    (h : Agrees S answers start ⟨answered, .get request rest, state⟩) (thread : Thread) :
    Agrees S answers start ⟨answered + 1,
      (settle S thread (answers answered request) rest state).1,
      (settle S thread (answers answered request) rest state).2⟩ := by
  have hnow : (Pending.get request rest, state) = sequential S answers start answered := h
  show resume S (settle S thread (answers answered request) rest state) =
    answerNext S answers answered (sequential S answers start answered)
  rw [← hnow, resume_settle]
  rfl

/-- Any thread may run a task that was handed to a scheduler. -/
theorem Agrees.run {c a : L.Ty} {start : Pending L c × L.State} {answered : Nat} {place : Place}
    {outcome : Outcome L a} {rest : Chain L a c} {state : L.State}
    (h : Agrees S answers start ⟨answered, .queued place outcome rest, state⟩) (thread : Thread) :
    Agrees S answers start ⟨answered, (settle S thread outcome rest state).1,
      (settle S thread outcome rest state).2⟩ := by
  show resume S (settle S thread outcome rest state) = sequential S answers start answered
  rw [resume_settle]
  exact h

theorem Agrees.settled {c : L.Ty} {start : Pending L c × L.State} {answered : Nat}
    {outcome : Outcome L c} {state : L.State}
    (h : Agrees S answers start ⟨answered, .settled outcome, state⟩) :
    sequential S answers start answered = (.settled outcome, state) := h.symm

/-- Once settled, a future does not change. -/
theorem sequential_settled {c : L.Ty} {start : Pending L c × L.State} {number : Nat}
    {outcome : Outcome L c} {state : L.State}
    (h : sequential S answers start number = (.settled outcome, state)) (later : Nat) :
    sequential S answers start (number + later) = (.settled outcome, state) := by
  induction later with
  | zero => exact h
  | succ later ih =>
      rw [← Nat.add_assoc, sequential, ih]
      rfl

/-- A future settles in one way only. -/
theorem sequential_unique {c : L.Ty} {start : Pending L c × L.State} {left right : Nat}
    {outcome outcome' : Outcome L c} {state state' : L.State}
    (hleft : sequential S answers start left = (.settled outcome, state))
    (hright : sequential S answers start right = (.settled outcome', state')) :
    outcome = outcome' ∧ state = state' := by
  have h := sequential_settled hleft right
  rw [Nat.add_comm, sequential_settled hright left] at h
  simpa only [Prod.mk.injEq, Pending.settled.injEq, eq_comm] using h

/-! ### Attaching continuations to futures that are already settled -/

variable (S answers)

/-- What the worker thread does with a waiting future: it answers the request, or runs the task
handed to it, and hands the rest on. -/
def workerStep {c : L.Ty} (progress : Progress L c) : Progress L c :=
  match progress.waiting with
  | .get request rest =>
      let after := settle S .worker (answers progress.answered request) rest progress.state
      ⟨progress.answered + 1, after.1, after.2⟩
  | .queued .workerThread outcome rest =>
      let after := settle S .worker outcome rest progress.state
      ⟨progress.answered, after.1, after.2⟩
  | _ => progress

/-- A worker thread leaves the shared state alone. -/
theorem workerStep_state {c : L.Ty} (progress : Progress L c) :
    (workerStep S answers progress).state = progress.state := by
  unfold workerStep
  split
  · exact settle_state S rfl _ _ _
  · exact settle_state S rfl _ _ _
  · rfl

/-- A main-thread continuation of a future that is settled already runs on the spot when the thread
dispatches the main-thread scheduler. -/
def mainStep (dispatchesMain : Bool) {c : L.Ty} (progress : Progress L c) : Progress L c :=
  match progress.waiting with
  | .queued .mainThread outcome rest =>
      if dispatchesMain then
        let after := settle S (.main true) outcome rest progress.state
        ⟨progress.answered, after.1, after.2⟩
      else progress
  | _ => progress

/-- The main thread attaches the continuations while worker threads complete `early` of the tasks
they were given before the next main-thread continuation is attached. -/
def attach (dispatchesMain : Bool) {c : L.Ty} : Nat → Progress L c → Progress L c
  | 0, progress => progress
  | early + 1, progress =>
      attach dispatchesMain early (mainStep S dispatchesMain (workerStep S answers progress))

variable {S answers}

theorem Agrees.workerStep {c : L.Ty} {start : Pending L c × L.State} {progress : Progress L c}
    (h : Agrees S answers start progress) :
    Agrees S answers start (workerStep S answers progress) := by
  rcases progress with ⟨answered, waiting, state⟩
  unfold Futures.workerStep
  split
  · next heq =>
      simp only at heq
      subst heq
      exact h.answer .worker
  · next heq =>
      simp only at heq
      subst heq
      exact h.run .worker
  · exact h

theorem Agrees.mainStep {c : L.Ty} {start : Pending L c × L.State} {progress : Progress L c}
    (h : Agrees S answers start progress) (dispatchesMain : Bool) :
    Agrees S answers start (mainStep S dispatchesMain progress) := by
  rcases progress with ⟨answered, waiting, state⟩
  unfold Futures.mainStep
  split
  · next heq =>
      simp only at heq
      subst heq
      split_ifs
      · exact h.run (.main true)
      · exact h
  · exact h

theorem Agrees.attach {c : L.Ty} {start : Pending L c × L.State} {progress : Progress L c}
    (h : Agrees S answers start progress) (dispatchesMain : Bool) (early : Nat) :
    Agrees S answers start (attach S answers dispatchesMain early progress) := by
  induction early generalizing progress with
  | zero => exact h
  | succ early ih => exact ih (h.workerStep.mainStep dispatchesMain)

end Futures

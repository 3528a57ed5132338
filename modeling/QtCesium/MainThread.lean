import Mathlib.Tactic.Common

/-! The thread-local list of main-thread schedulers that are being dispatched, and the scopes that push
and pop it: `ImmediateScheduler::SchedulerScope` and `std::optional` of it. -/

namespace QtCesium

/-- Where an `AsyncSystemSchedulers` object lies. The list holds addresses, not objects. -/
abbrev Address := Nat

/-- The main thread's list, and whether every `CESIUM_ASSERT` of a scope held so far. With `NDEBUG` the
assertions are not compiled and the program goes on. -/
structure MainThread where
  schedulersCurrentlyDispatching : List Address
  assertionsHold : Bool
  deriving DecidableEq

/-- A scope's `_pScheduler`. -/
abbrev SchedulerScope := Option Address

namespace MainThread

def dispatches (thread : MainThread) (scheduler : Address) : Bool :=
  scheduler ∈ thread.schedulersCurrentlyDispatching

/-- The constructor of a scope. -/
def enter (thread : MainThread) (scheduler : Address) : MainThread :=
  { thread with
    schedulersCurrentlyDispatching := thread.schedulersCurrentlyDispatching ++ [scheduler] }

/-- `SchedulerScope::reset`, which its destructor calls: the scheduler should be at the back, and
whatever is there is popped. -/
def reset (thread : MainThread) : SchedulerScope → MainThread
  | none => thread
  | some scheduler =>
      { schedulersCurrentlyDispatching := thread.schedulersCurrentlyDispatching.dropLast
        assertionsHold := thread.assertionsHold &&
          thread.schedulersCurrentlyDispatching.getLast? == some scheduler }

/-- Assign a temporary scope to the optional. Over an empty optional the temporary is moved from;
over an engaged one the two swap, and the temporary's destructor resets the scope held before. -/
def assignScope (thread : MainThread) (held : Option SchedulerScope) (temporary : SchedulerScope) :
    MainThread × Option SchedulerScope :=
  match held with
  | none => (thread.reset none, some temporary)
  | some scope => (thread.reset scope, some temporary)

/-- The destructor of the optional. -/
def destroyScope (thread : MainThread) (held : Option SchedulerScope) : MainThread :=
  match held with
  | none => thread
  | some scope => thread.reset scope

@[simp] theorem enter_dispatches (thread : MainThread) (scheduler : Address) :
    (thread.enter scheduler).dispatches scheduler = true := by
  simp [dispatches, enter]

/-- A scope that ends with its scheduler at the back restores the thread. -/
@[simp] theorem reset_enter (thread : MainThread) (scheduler : Address) :
    (thread.enter scheduler).reset (some scheduler) = thread := by
  simp [enter, reset]

/-- Resetting the scope of another scheduler fails the assertion. -/
theorem reset_enter_of_ne {thread : MainThread} {scheduler other : Address} (h : other ≠ scheduler) :
    ((thread.enter other).reset (some scheduler)).assertionsHold = false := by
  simp [enter, reset, h]

end MainThread

end QtCesium

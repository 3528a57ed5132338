import QtCesium.RuntimeSteps

/-! The main thread's list of schedulers being dispatched over runs of starts and ticks. The scope of the
first start stays in place until the runtime is destroyed. A second accepted start pushes its own
scheduler first and then resets the scope held before, which is no longer at the back. -/

namespace QtCesium

/-- The scheduler of the current tileset, if there is one. -/
def World.currentSchedulers (world : World) : List Address :=
  match world.tileset.bind world.tilesets with
  | none => []
  | some tileset => [tileset.scheduler]

/-- Between calls: the list from before construction with the current tileset's scheduler, no failed
assertion so far, and a destruction that would restore the list. -/
structure Registered (dispatching : List Address) (world : World) : Prop where
  list : world.main.schedulersCurrentlyDispatching = dispatching ++ world.currentSchedulers
  assertions : world.main.assertionsHold = true
  destroy_list : world.destroy.main.schedulersCurrentlyDispatching = dispatching
  destroy_assertions : world.destroy.main.assertionsHold = true

def Action.acceptedStart : Action → Bool
  | .start environment _ _ => environment.accepted
  | _ => false

def acceptedStarts (actions : List Action) : Nat := actions.countP Action.acceptedStart

theorem acceptedStarts_start (environment : Environment) (scheduler : Address) (early : Nat) :
    acceptedStarts [.start environment scheduler early] = if environment.accepted then 1 else 0 := by
  cases h : environment.accepted <;> simp [acceptedStarts, Action.acceptedStart, h]

variable (readers : Readers) (network : Network)

/-- Where the scopes stand after `count` accepted starts, for a runtime that still exists. -/
inductive ScopesAfter (dispatching : List Address) (world : World) : Nat → Prop where
  | gone {count : Nat} (h : world.alive = false) : ScopesAfter dispatching world count
  | empty (htileset : world.tileset = none) (hscope : world.mainThreadScope = none)
      (hmain : world.main = ⟨dispatching, true⟩) : ScopesAfter dispatching world 0
  | entered {id : TilesetId} {tileset : Tileset} (htileset : world.tileset = some id)
      (hid : world.tilesets id = some tileset)
      (hscope : world.mainThreadScope = some (some tileset.scheduler))
      (hmain : world.main = MainThread.enter ⟨dispatching, true⟩ tileset.scheduler) :
      ScopesAfter dispatching world 1

theorem ScopesAfter.registered {dispatching : List Address} {world : World} {count : Nat}
    (h : ScopesAfter dispatching world count) (hidle : world.idle = true) :
    Registered dispatching world := by
  cases h with
  | gone hgone =>
      rw [World.alive_of_idle hidle] at hgone
      cases hgone
  | empty htileset hscope hmain =>
      have hdestroy : world.destroy.main = ⟨dispatching, true⟩ := by
        rw [world.destroy_runtime.main, hscope, hmain]
        rfl
      refine ⟨?_, ?_, ?_, ?_⟩
      · rw [hmain, World.currentSchedulers, htileset]
        exact (List.append_nil _).symm
      · rw [hmain]
      · rw [hdestroy]
      · rw [hdestroy]
  | entered htileset hid hscope hmain =>
      have hdestroy : world.destroy.main = ⟨dispatching, true⟩ := by
        rw [world.destroy_runtime.main, hscope, hmain]
        exact MainThread.reset_enter _ _
      refine ⟨?_, ?_, ?_, ?_⟩
      · rw [hmain, World.currentSchedulers, htileset, Option.bind_some, hid]
        rfl
      · rw [hmain]
        rfl
      · rw [hdestroy]
      · rw [hdestroy]

/-- The scopes do not depend on more than this. -/
theorem ScopesAfter.keep {dispatching : List Address} {world after : World} {count : Nat}
    (h : ScopesAfter dispatching world count) (hmain : after.main = world.main)
    (htileset : after.tileset = world.tileset)
    (hscope : after.mainThreadScope = world.mainThreadScope) (halive : after.alive = world.alive)
    (hobject : ∀ id tileset, world.tilesets id = some tileset →
      ∃ tileset', after.tilesets id = some tileset' ∧ tileset'.scheduler = tileset.scheduler) :
    ScopesAfter dispatching after count := by
  cases h with
  | gone hgone => exact .gone (halive.trans hgone)
  | empty hnone hempty hlist =>
      exact .empty (htileset.trans hnone) (hscope.trans hempty) (hmain.trans hlist)
  | @entered id tileset hcurrent hid hheld hlist =>
      obtain ⟨tileset', hid', hscheduler⟩ := hobject id tileset hid
      rw [← hscheduler] at hheld hlist
      exact .entered (htileset.trans hcurrent) hid' (hscope.trans hheld) (hmain.trans hlist)

theorem LoadEffect.scheduler_eq {id : TilesetId} {tileset : Tileset} {world after : World}
    (h : LoadEffect id tileset world after) (hid : world.tilesets id = some tileset)
    (other : TilesetId) (now : Tileset) (hnow : world.tilesets other = some now) :
    ∃ tileset', after.tilesets other = some tileset' ∧ tileset'.scheduler = now.scheduler := by
  by_cases hother : other = id
  · subst hother
    obtain ⟨tileset', htileset', hadvances⟩ := h.object
    rw [hid] at hnow
    cases hnow
    exact ⟨tileset', htileset', hadvances.scheduler⟩
  · exact ⟨now, (h.others other hother).trans hnow, rfl⟩

/-- A step that is no accepted start, and the first that is, leave the scopes nested. -/
theorem scopesAfter_step {dispatching : List Address} {world after : World} {action : Action}
    {count : Nat} (horderly : Orderly world) (hstep : step readers network world action = some after)
    (h : ScopesAfter dispatching world count) (hcount : count + acceptedStarts [action] ≤ 1) :
    ScopesAfter dispatching after (count + acceptedStarts [action]) := by
  have hsame : ∀ id tileset, world.tilesets id = some tileset →
      ∃ tileset', world.tilesets id = some tileset' ∧ tileset'.scheduler = tileset.scheduler :=
    fun id tileset hid => ⟨tileset, hid, rfl⟩
  cases step_stepped readers network horderly hstep with
  | refused hidle haccepted =>
      rw [acceptedStarts_start, haccepted]
      exact h.keep rfl rfl rfl rfl hsame
  | started hidle haccepted hfree hstarted =>
      rw [acceptedStarts_start, haccepted] at hcount ⊢
      simp only [if_true] at hcount ⊢
      obtain ⟨tileset, htileset, hscheduler, -, -, -⟩ := hstarted.object
      cases h with
      | gone hgone =>
          rw [World.alive_of_idle hidle] at hgone
          cases hgone
      | empty hnone hscope hmain =>
          have hscopes := hstarted.scope
          rw [hscope, hmain] at hscopes
          obtain ⟨hmain', hscope'⟩ := Prod.mk.inj hscopes
          rw [← hscheduler] at hmain' hscope'
          exact .entered hstarted.tileset htileset hscope' hmain'
      | entered => omega
  | ticked => exact h.keep rfl rfl rfl rfl hsame
  | drained => exact h.keep rfl rfl rfl rfl hsame
  | @dispatched _ _ tileset _ _ ran hid htileset hqueue heffect =>
      refine h.keep ?_ heffect.runtime.tileset heffect.runtime.mainThreadScope heffect.runtime.alive ?_
      · show ran.main.reset (some tileset.scheduler) = world.main
        rw [heffect.runtime.main]
        exact MainThread.reset_enter _ _
      · exact heffect.scheduler_eq htileset
  | completed htileset hpending heffect =>
      exact h.keep heffect.runtime.main heffect.runtime.tileset heffect.runtime.mainThreadScope
        heffect.runtime.alive (heffect.scheduler_eq htileset)
  | destroyed => exact .gone world.destroy_runtime.alive

/-- The assertion of a second accepted start fails: the new scheduler is at the back of the list when
the old scope is reset. -/
theorem assertionsHold_of_second_start {dispatching : List Address} {world after : World}
    {action : Action} (horderly : Orderly world)
    (hstep : step readers network world action = some after)
    (h : ScopesAfter dispatching world 1) (haction : acceptedStarts [action] = 1) :
    after.idle = true ∧ after.main.assertionsHold = false := by
  cases step_stepped readers network horderly hstep with
  | refused hidle haccepted =>
      rw [acceptedStarts_start, haccepted] at haction
      cases haction
  | @started _ scheduler _ _ hidle haccepted hfree hstarted =>
      have hidle' : after.idle = true := by
        rw [World.idle, hstarted.alive, hstarted.ticking]
        exact hidle
      refine ⟨hidle', ?_⟩
      cases h with
      | gone hgone =>
          rw [World.alive_of_idle hidle] at hgone
          cases hgone
      | @entered id tileset htileset hid hscope hmain =>
          obtain ⟨now, hnow, hlive⟩ := horderly.current.exists_current id htileset
          obtain rfl := Option.some.inj (hid.symm.trans hnow)
          obtain ⟨queue, hqueue, -⟩ := horderly.allocated.queue id tileset hid (Or.inl hlive)
          have hne : scheduler ≠ tileset.scheduler := by
            rintro rfl
            rw [hfree] at hqueue
            cases hqueue
          have hscopes := hstarted.scope
          rw [hscope] at hscopes
          rw [(Prod.mk.inj hscopes).1]
          exact MainThread.reset_enter_of_ne hne
  | ticked => cases haction
  | drained => cases haction
  | dispatched => cases haction
  | completed => cases haction
  | destroyed => cases haction

/-! ### Runs -/

theorem acceptedStarts_cons (action : Action) (rest : List Action) :
    acceptedStarts (action :: rest) = acceptedStarts [action] + acceptedStarts rest := by
  rw [acceptedStarts, ← List.singleton_append, List.countP_append]
  rfl

theorem acceptedStarts_singleton_le (action : Action) : acceptedStarts [action] ≤ 1 :=
  List.countP_le_length

theorem throughout_registered_iff {dispatching : List Address} {actions : List Action} {world : World}
    {count : Nat} (horderly : Orderly world) (h : ScopesAfter dispatching world count)
    (hcount : count ≤ 1) (hrun : (Run.run (step readers network) world actions).isSome = true) :
    Run.Throughout (step readers network) (fun reached => reached.idle = true → Registered dispatching reached)
      world actions ↔ count + acceptedStarts actions ≤ 1 := by
  induction actions generalizing world count with
  | nil =>
      rw [Run.throughout_nil]
      exact ⟨fun _ => hcount, fun _ => h.registered⟩
  | cons action rest ih =>
      obtain ⟨final, hfinal⟩ := Option.isSome_iff_exists.mp hrun
      obtain ⟨after, hstep, hrest⟩ := Run.run_cons.mp hfinal
      have horderly' := orderly_step readers network hstep horderly
      have hsome : (Run.run (step readers network) after rest).isSome = true := by
        rw [hrest]
        rfl
      have hafter : (∀ next, step readers network world action = some next →
          Run.Throughout (step readers network)
            (fun reached => reached.idle = true → Registered dispatching reached) next rest) ↔
          Run.Throughout (step readers network)
            (fun reached => reached.idle = true → Registered dispatching reached) after rest := by
        rw [hstep]
        exact ⟨fun hall => hall after rfl, fun hone next heq => Option.some.inj heq ▸ hone⟩
      rw [Run.throughout_cons, hafter, acceptedStarts_cons, ← Nat.add_assoc]
      by_cases hone : count + acceptedStarts [action] ≤ 1
      · rw [ih horderly' (scopesAfter_step readers network horderly hstep h hone) hone hsome]
        exact ⟨fun hboth => hboth.2, fun hle => ⟨h.registered, hle⟩⟩
      · -- The scope of an earlier start is still in place.
        have hle := acceptedStarts_singleton_le action
        obtain rfl : count = 1 := by omega
        have haction : acceptedStarts [action] = 1 := by omega
        constructor
        · rintro ⟨-, hlater⟩
          obtain ⟨hidle, hfailed⟩ :=
            assertionsHold_of_second_start readers network horderly hstep h haction
          have hregistered := hlater [] rest rfl after rfl hidle
          rw [hregistered.assertions] at hfailed
          cases hfailed
        · intro htotal
          omega

/-- Whatever the process and the thread were before, and whatever the run: every state between calls has
the main thread registered for the current tileset exactly when at most one start was accepted. -/
theorem registered_iff (dispatching : List Address) (schedulers : Address → Option (List Task))
    (endpointCache : EndpointCache) (actions : List Action)
    (hrun : (Run.run (step readers network) (.construct dispatching schedulers endpointCache)
      actions).isSome = true) :
    Run.Throughout (step readers network) (fun reached => reached.idle = true → Registered dispatching reached)
      (.construct dispatching schedulers endpointCache) actions ↔ acceptedStarts actions ≤ 1 := by
  rw [throughout_registered_iff readers network (orderly_construct ..)
    (.empty rfl rfl rfl) (Nat.zero_le 1) hrun, Nat.zero_add]

theorem registered_iff_one_start :
    Run.Throughout (step Sample.nothingParses Sample.notFound)
      (fun reached => reached.idle = true → Registered [7] reached) (.construct [7] (fun _ => none) ∅)
      [.start Sample.environment 1 0, .complete 0, .tick, .dispatch 0, .dispatch 0] ↔
    acceptedStarts [.start Sample.environment 1 0, .complete 0, .tick, .dispatch 0, .dispatch 0] ≤ 1 :=
  registered_iff Sample.nothingParses Sample.notFound [7] (fun _ => none) ∅
    [.start Sample.environment 1 0, .complete 0, .tick, .dispatch 0, .dispatch 0] (by decide)

/-- Two starts in a row. -/
theorem not_registered_second_start :
    ¬Run.Throughout (step Sample.nothingParses Sample.notFound)
      (fun reached => reached.idle = true → Registered [] reached) Sample.fresh
      [.start Sample.environment 1 0, .start Sample.environment 2 0] := by
  intro h
  have hlast : (Run.run (step Sample.nothingParses Sample.notFound) Sample.fresh
      [.start Sample.environment 1 0, .start Sample.environment 2 0]).map
        (fun reached => (reached.idle, reached.main)) = some (true, ⟨[1], false⟩) := by decide
  obtain ⟨reached, hrun, hreached⟩ := Option.map_eq_some_iff.mp hlast
  obtain ⟨hidle, hmain⟩ := Prod.mk.inj hreached
  have hregistered := h _ [] (List.append_nil _).symm reached hrun hidle
  have hassertions := hregistered.assertions
  rw [hmain] at hassertions
  cases hassertions

end QtCesium

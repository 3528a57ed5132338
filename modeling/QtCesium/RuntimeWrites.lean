import QtCesium.RuntimeSteps

/-! Which status writes the callbacks of the loads make, and when. Only the queue of the current tileset
is dispatched, so a callback runs for the current tileset; the exception is a start whose new scheduler
lies at an address that the main thread already dispatches, left in the list by an earlier start.
Continuations attached there to futures that worker threads have settled run on the spot, while the
previous tileset is still the current one. -/

namespace QtCesium

open Futures

/-- The callback found the runtime alive and its own tileset the current one. -/
def StatusWrite.OfCurrent (write : StatusWrite) : Prop :=
  write.alive = true ∧ write.current = some write.tileset

/-- A load with this outcome calls `loadErrorCallback`. -/
def reportsError : Outcome Load .result → Bool
  | .ok result => result.errors.hasErrors
  | .error _ => false

variable (readers : Readers) (network : Network)

/-- Between any two states of the run, each callback that writes finds the runtime alive and belongs to
the tileset then current, which is no earlier than the one current in the first of the two. -/
def NoStaleWrites (world : World) (actions : List Action) : Prop :=
  ∀ earlier later, earlier ++ later <+: actions → ∀ middle final,
    Run.run (step readers network) world earlier = some middle →
    Run.run (step readers network) middle later = some final →
    ∃ writes, final.writes = middle.writes ++ writes ∧ ∀ write ∈ writes,
      write.OfCurrent ∧ middle.alive = true ∧ ∀ id, middle.tileset = some id → id ≤ write.tileset

/-- The new tileset's scheduler lies at an address in the main thread's list, and worker threads
bring the load to a result with errors before its continuations are attached. -/
def ReportsWhileCreating (world : World) : Action → Prop
  | .start environment scheduler early =>
      let loaderFactory := World.ionFactory environment.parsedAssetId environment.token
      environment.accepted = true ∧ loaderFactory.isValid = true ∧
        world.main.dispatches scheduler = true ∧
        ∃ outcome, reportsError outcome = true ∧
          (world.beginLoad readers network world.nextTileset scheduler loaderFactory early).waiting =
            .settled outcome
  | _ => False

/-! ### Writes while a tileset is created -/

namespace World

variable {world : World} {id : TilesetId} {tileset : Tileset}

/-- The one write an error makes. -/
def errorWrite (world : World) (id : TilesetId) (outcome : Outcome Load .result) : List StatusWrite :=
  if reportsError outcome then [⟨id, world.alive, world.tileset⟩] else []

theorem loadErrorCallback_writes (tileset : Tileset) (outcome : Outcome Load .result) :
    (world.loadErrorCallback id (tileset.finishLoad outcome).1).writes =
      world.writes ++ world.errorWrite id outcome := by
  cases outcome with
  | error exn => exact (List.append_nil _).symm
  | ok result =>
      rw [Tileset.finishLoad, TilesetContentManager.propagateTilesetContentLoaderResult, errorWrite,
        reportsError]
      split_ifs
      · rfl
      · exact (List.append_nil _).symm

/-- Before the continuation on the event is attached, only an error is written. -/
theorem finishLoad_writes (hunattached : tileset.onRootTileAvailable = none)
    (outcome : Outcome Load .result) :
    (world.finishLoad id tileset outcome).writes = world.writes ++ world.errorWrite id outcome := by
  have hnone := (tileset.finishLoad_advances outcome).onRootTileAvailable.trans hunattached
  unfold finishLoad
  simp only
  rw [scheduleRootTileAvailable, hnone]
  exact loadErrorCallback_writes tileset outcome

/-- Parking a load on the main thread writes only when it finishes the load with errors. -/
theorem park_writes (hunattached : tileset.onRootTileAvailable = none)
    {progress : Progress Load .result} {outcome : Outcome Load .result}
    (hsettled : progress.waiting = .settled outcome)
    (hdispatches : world.main.dispatches tileset.scheduler = true) :
    (world.park id tileset progress true).writes = world.writes ++ world.errorWrite id outcome := by
  rw [park, hsettled]
  simp only [Bool.true_and]
  rw [if_pos (by exact hdispatches), finishLoad_writes (by exact hunattached)]
  rfl

variable (world)

/-- A tileset created without reporting an error writes no status. -/
theorem createFromLoaderFactory_writes_of_silent {scheduler : Address}
    {loaderFactory : CesiumIonTilesetContentLoaderFactory} {early : Nat}
    (h : ∀ outcome, loaderFactory.isValid = true → world.main.dispatches scheduler = true →
      (world.beginLoad readers network id scheduler loaderFactory early).waiting = .settled outcome →
      reportsError outcome = false) :
    (world.createFromLoaderFactory readers network id scheduler loaderFactory early).writes =
      world.writes := by
  unfold createFromLoaderFactory
  simp only
  split_ifs with hvalid
  · cases hdispatches : world.main.dispatches scheduler with
    | false =>
        apply park_writes_of_unfinished
        intro _ _
        rw [Bool.true_and]
        exact hdispatches
    | true =>
        by_cases hsettled : ∃ outcome,
            (world.beginLoad readers network id scheduler loaderFactory early).waiting = .settled outcome
        · obtain ⟨outcome, hsettled⟩ := hsettled
          rw [park_writes (by rfl) hsettled (by exact hdispatches), errorWrite,
            h outcome hvalid hdispatches hsettled]
          exact List.append_nil _
        · exact park_writes_of_unfinished fun outcome hsome => absurd ⟨outcome, hsome⟩ hsettled
  · rfl

theorem createFromLoaderFactory_writes_of_report {scheduler : Address}
    {loaderFactory : CesiumIonTilesetContentLoaderFactory} {early : Nat}
    {outcome : Outcome Load .result} (hvalid : loaderFactory.isValid = true)
    (hdispatches : world.main.dispatches scheduler = true)
    (hsettled : (world.beginLoad readers network id scheduler loaderFactory early).waiting =
      .settled outcome) (hreport : reportsError outcome = true) :
    (world.createFromLoaderFactory readers network id scheduler loaderFactory early).writes =
      world.writes ++ [⟨id, world.alive, world.tileset⟩] := by
  unfold createFromLoaderFactory
  simp only
  rw [if_pos hvalid, park_writes (by rfl) hsettled (by exact hdispatches), errorWrite, if_pos hreport]

end World

/-! ### Steps -/

/-- The writes of one step that reports nothing while creating. -/
theorem writes_step {world after : World} {action : Action} (horderly : Orderly world)
    (hstep : step readers network world action = some after)
    (hsilent : ¬ReportsWhileCreating readers network world action) :
    ∃ writes, after.writes = world.writes ++ writes ∧ ∀ write ∈ writes,
      write.OfCurrent ∧ world.alive = true ∧ after.tileset = some write.tileset := by
  cases step_stepped readers network horderly hstep with
  | refused => exact ⟨[], (List.append_nil _).symm, by simp⟩
  | @started environment scheduler early _ hidle haccepted _ hstarted =>
      have halive := World.alive_of_idle hidle
      obtain ⟨count, hwrites⟩ := hstarted.writes
      have hcreated : ((world.setStatus creatingStatus).createIonTileset readers network
          environment.parsedAssetId environment.token scheduler early).writes = world.writes := by
        unfold World.createIonTileset
        apply World.createFromLoaderFactory_writes_of_silent
        intro outcome hvalid hdispatches hsettled
        by_contra hreport
        exact hsilent ⟨haccepted, hvalid, hdispatches, outcome, Bool.of_not_eq_false hreport, hsettled⟩
      refine ⟨_, by rw [hwrites, hcreated], fun write hwrite => ?_⟩
      obtain rfl := List.eq_of_mem_replicate hwrite
      exact ⟨⟨halive, rfl⟩, halive, hstarted.tileset⟩
  | ticked => exact ⟨[], (List.append_nil _).symm, by simp⟩
  | drained => exact ⟨[], (List.append_nil _).symm, by simp⟩
  | dispatched hid htileset hqueue heffect =>
      have halive := horderly.current.alive _ hid
      obtain ⟨count, hwrites⟩ := heffect.writes
      refine ⟨_, hwrites, fun write hwrite => ?_⟩
      obtain rfl := List.eq_of_mem_replicate hwrite
      exact ⟨⟨halive, hid⟩, halive, heffect.runtime.tileset.trans hid⟩
  | completed _ _ _ hwrites => exact ⟨[], by rw [hwrites, List.append_nil], by simp⟩
  | destroyed => exact ⟨[], by rw [World.destroy_writes, List.append_nil], by simp⟩

/-- A start that reports an error while it creates the tileset writes it over the status of the tileset
before. -/
theorem writes_step_of_report {world after : World} {action : Action} (horderly : Orderly world)
    (hstep : step readers network world action = some after)
    (hreport : ReportsWhileCreating readers network world action) :
    ∃ write rest, after.writes = world.writes ++ write :: rest ∧ ¬write.OfCurrent := by
  cases step_stepped readers network horderly hstep with
  | refused _ haccepted =>
      rw [hreport.1] at haccepted
      cases haccepted
  | @started environment scheduler early _ _ _ _ hstarted =>
      obtain ⟨-, hvalid, hdispatches, outcome, herror, hsettled⟩ := hreport
      obtain ⟨count, hwrites⟩ := hstarted.writes
      have hcreated : ((world.setStatus creatingStatus).createIonTileset readers network
          environment.parsedAssetId environment.token scheduler early).writes =
          world.writes ++ [⟨world.nextTileset, world.alive, world.tileset⟩] := by
        unfold World.createIonTileset
        exact World.createFromLoaderFactory_writes_of_report readers network _ hvalid hdispatches
          hsettled herror
      refine ⟨_, _, by rw [hwrites, hcreated, List.append_assoc]; rfl, ?_⟩
      rintro ⟨-, hcurrent⟩
      obtain ⟨tileset, htileset, -⟩ := horderly.current.exists_current _ hcurrent
      exact Nat.lt_irrefl _ (horderly.allocated.numbered _ _ htileset)
  | ticked => cases hreport
  | drained => cases hreport
  | dispatched => cases hreport
  | completed => cases hreport
  | destroyed => cases hreport

/-- A runtime that is alive after a step was alive before it, with a tileset no later than the one it has
now. -/
theorem tileset_le_step {world after : World} {action : Action} (horderly : Orderly world)
    (hstep : step readers network world action = some after) (halive : after.alive = true) :
    world.alive = true ∧ ∀ id, world.tileset = some id → ∃ now, after.tileset = some now ∧ id ≤ now := by
  have hkeep : ∀ {next : World}, next.alive = true → next.alive = world.alive →
      next.tileset = world.tileset →
      world.alive = true ∧ ∀ id, world.tileset = some id → ∃ now, next.tileset = some now ∧ id ≤ now := by
    intro next hnext hsame htileset
    exact ⟨hsame ▸ hnext, fun id hid => ⟨id, htileset.trans hid, Nat.le_refl id⟩⟩
  cases step_stepped readers network horderly hstep with
  | refused => exact hkeep halive rfl rfl
  | started hidle _ _ hstarted =>
      refine ⟨World.alive_of_idle hidle, fun id hid => ⟨_, hstarted.tileset, ?_⟩⟩
      obtain ⟨tileset, htileset, -⟩ := horderly.current.exists_current id hid
      exact Nat.le_of_lt (horderly.allocated.numbered id tileset htileset)
  | ticked => exact hkeep halive rfl rfl
  | drained => exact hkeep halive rfl rfl
  | dispatched _ _ _ heffect => exact hkeep halive heffect.runtime.alive heffect.runtime.tileset
  | completed _ _ heffect _ => exact hkeep halive heffect.runtime.alive heffect.runtime.tileset
  | destroyed =>
      rw [world.destroy_runtime.alive] at halive
      cases halive

/-! ### Runs -/

theorem writes_run {actions : List Action} {world final : World} (horderly : Orderly world)
    (hrun : Run.run (step readers network) world actions = some final)
    (hsilent : Run.Along (step readers network)
      (fun reached action => ¬ReportsWhileCreating readers network reached action) world actions) :
    ∃ writes, final.writes = world.writes ++ writes ∧ ∀ write ∈ writes,
      write.OfCurrent ∧ world.alive = true ∧ ∀ id, world.tileset = some id → id ≤ write.tileset := by
  induction actions generalizing world with
  | nil =>
      cases hrun
      exact ⟨[], (List.append_nil _).symm, by simp⟩
  | cons action rest ih =>
      obtain ⟨after, hstep, hrest⟩ := Run.run_cons.mp hrun
      have hafter := orderly_step readers network hstep horderly
      have hle := fun halive => tileset_le_step readers network horderly hstep halive
      obtain ⟨first, hfirst, hfirstWrites⟩ := writes_step readers network horderly hstep hsilent.1
      obtain ⟨later, hlater, hlaterWrites⟩ := ih hafter hrest (hsilent.2 after hstep)
      refine ⟨first ++ later, by rw [hlater, hfirst, List.append_assoc], fun write hwrite => ?_⟩
      rcases List.mem_append.mp hwrite with hmem | hmem
      · obtain ⟨hcurrent, halive, htileset⟩ := hfirstWrites write hmem
        refine ⟨hcurrent, halive, fun id hid => ?_⟩
        obtain ⟨now, hnow, hnext⟩ := (hle (hafter.current.alive _ htileset)).2 id hid
        rw [htileset] at hnow
        cases hnow
        exact hnext
      · obtain ⟨hcurrent, halive, hlaterTileset⟩ := hlaterWrites write hmem
        refine ⟨hcurrent, (hle halive).1, fun id hid => ?_⟩
        obtain ⟨now, hnow, hnext⟩ := (hle halive).2 id hid
        calc
          id ≤ now := hnext
          _ ≤ write.tileset := hlaterTileset now hnow

theorem NoStaleWrites.tail {world after : World} {action : Action} {rest : List Action}
    (h : NoStaleWrites readers network world (action :: rest))
    (hstep : step readers network world action = some after) : NoStaleWrites readers network after rest := by
  intro earlier later hprefix middle final hearlier hlater
  exact h (action :: earlier) later (List.cons_prefix_cons.mpr ⟨rfl, hprefix⟩) middle final
    (Run.run_cons.mpr ⟨after, hstep, hearlier⟩) hlater

/-- The write of a start that reports while it creates the tileset is a stale one. -/
theorem NoStaleWrites.silent {world after : World} {action : Action} {rest : List Action}
    (h : NoStaleWrites readers network world (action :: rest)) (horderly : Orderly world)
    (hstep : step readers network world action = some after) :
    ¬ReportsWhileCreating readers network world action := by
  intro hreport
  obtain ⟨write, others, hwrites, hstale⟩ := writes_step_of_report readers network horderly hstep hreport
  obtain ⟨writes, hnew, hfine⟩ := h [] [action] (List.prefix_append [action] rest) world after rfl
    (Run.run_cons.mpr ⟨after, hstep, rfl⟩)
  obtain rfl : write :: others = writes := List.append_cancel_left (hwrites.symm.trans hnew)
  exact hstale (hfine write List.mem_cons_self).1

theorem noStaleWrites_iff_of_orderly {world : World} (horderly : Orderly world) {actions : List Action}
    (hrun : (Run.run (step readers network) world actions).isSome = true) :
    NoStaleWrites readers network world actions ↔ Run.Along (step readers network)
      (fun reached action => ¬ReportsWhileCreating readers network reached action) world actions := by
  constructor
  · intro h
    induction actions generalizing world with
    | nil => trivial
    | cons action rest ih =>
        refine ⟨?_, fun after hstep => ?_⟩
        · obtain ⟨final, hfinal⟩ := Option.isSome_iff_exists.mp hrun
          obtain ⟨after, hstep, -⟩ := Run.run_cons.mp hfinal
          exact h.silent readers network horderly hstep
        · have hrest : (Run.run (step readers network) after rest).isSome = true := by
            rw [Run.run, hstep] at hrun
            exact hrun
          exact ih (orderly_step readers network hstep horderly) hrest (h.tail readers network hstep)
  · intro hsilent earlier later hprefix middle final hearlier hlater
    obtain ⟨rest, rfl⟩ := hprefix
    rw [List.append_assoc, Run.along_append hearlier] at hsilent
    exact writes_run readers network (orderly_run readers network hearlier horderly) hlater
      ((Run.along_append hlater).mp hsilent.2).1

/-- Whatever the process and the thread were before, and whatever the run: no status of an earlier load, and
none after the destruction, is written exactly when no start reports an error while it creates its
tileset. -/
theorem noStaleWrites_iff (dispatching : List Address) (schedulers : Address → Option (List Task))
    (endpointCache : EndpointCache) (actions : List Action)
    (hrun : (Run.run (step readers network) (.construct dispatching schedulers endpointCache)
      actions).isSome = true) :
    NoStaleWrites readers network (.construct dispatching schedulers endpointCache) actions ↔
      Run.Along (step readers network)
        (fun reached action => ¬ReportsWhileCreating readers network reached action)
        (.construct dispatching schedulers endpointCache) actions :=
  noStaleWrites_iff_of_orderly readers network (orderly_construct ..) hrun

/-- A second start while the first load is in progress, a destruction, and the answer that comes too late. -/
theorem noStaleWrites_iff_two_starts :
    NoStaleWrites Sample.nothingParses Sample.notFound Sample.fresh
      [.start Sample.environment 1 0, .start Sample.environment 2 0, .complete 1, .tick, .dispatch 0,
        .dispatch 0, .complete 0, .destroy] ↔
    Run.Along (step Sample.nothingParses Sample.notFound)
      (fun reached action => ¬ReportsWhileCreating Sample.nothingParses Sample.notFound reached action)
      Sample.fresh
      [.start Sample.environment 1 0, .start Sample.environment 2 0, .complete 1, .tick, .dispatch 0,
        .dispatch 0, .complete 0, .destroy] :=
  noStaleWrites_iff Sample.nothingParses Sample.notFound [] (fun _ => none) ∅ _ (by decide)

/-- The third start's schedulers lie where the first's lay. -/
def staleStart : List Action :=
  [.start Sample.environment 1 0, .complete 0, .tick, .dispatch 0, .dispatch 0,
    .start Sample.environment 2 0, .start Sample.environment 1 1]

/-- The third load's error is written while the second tileset is still the current one. -/
theorem not_noStaleWrites_staleStart :
    ¬NoStaleWrites Sample.nothingParses Sample.notFound Sample.fresh staleStart := by
  intro h
  have hlast : (Run.run (step Sample.nothingParses Sample.notFound) Sample.fresh staleStart).map
      (fun reached => decide (⟨2, true, some 1⟩ ∈ reached.writes)) = some true := by decide
  obtain ⟨reached, hrun, hreached⟩ := Option.map_eq_some_iff.mp hlast
  obtain ⟨writes, hwrites, hfine⟩ := h [] staleStart (List.prefix_refl _) _ reached rfl hrun
  obtain rfl : reached.writes = writes := hwrites
  obtain ⟨⟨-, hcurrent⟩, -⟩ := hfine ⟨2, true, some 1⟩ (of_decide_eq_true hreached)
  cases hcurrent

end QtCesium

import QtCesium.RuntimeLoad
import QtCesium.LibraryRun

/-! Which tilesets and schedulers exist. A tileset holds its schedulers while it lives or its load is in
progress; the schedulers held are allocated, different tilesets hold different ones, and the queue of
each has tasks of its own tileset only. The tileset that is not destroyed is the current one. -/

namespace QtCesium

open Futures

/-- The tileset, or the load it began, still holds its schedulers. -/
def Tileset.Held (tileset : Tileset) : Prop :=
  tileset.destroyed = false ∨ tileset.manager.rootTileAvailable = .pending

theorem Tileset.Advances.held {before after : Tileset} (h : before.Advances after) (hheld : after.Held) :
    before.Held :=
  hheld.imp (fun hdestroyed => h.destroyed ▸ hdestroyed) h.pending

/-- The queue of an allocated scheduler, with tasks of one tileset. -/
def World.QueueOf (world : World) (scheduler : Address) (id : TilesetId) : Prop :=
  ∃ queue, world.schedulers scheduler = some queue ∧ ∀ task ∈ queue, task.tileset = id

structure Allocated (world : World) : Prop where
  numbered : ∀ id tileset, world.tilesets id = some tileset → id < world.nextTileset
  loading : ∀ id tileset, world.tilesets id = some tileset → tileset.Loading
  queue : ∀ id tileset, world.tilesets id = some tileset → tileset.Held →
    world.QueueOf tileset.scheduler id
  distinct : ∀ id tileset other tileset', world.tilesets id = some tileset →
    world.tilesets other = some tileset' → tileset.Held → tileset'.Held →
    tileset.scheduler = tileset'.scheduler → id = other

/-- The current tileset, and no other, is not destroyed; there is none once the runtime is gone. -/
structure Current (world : World) : Prop where
  exists_current : ∀ id, world.tileset = some id →
    ∃ tileset, world.tilesets id = some tileset ∧ tileset.destroyed = false
  unique : ∀ id tileset, world.tilesets id = some tileset → tileset.destroyed = false →
    world.tileset = some id
  alive : ∀ id, world.tileset = some id → world.alive = true

/-- Only the fields named here matter. -/
theorem Allocated.congr {world after : World} (h : Allocated world)
    (htilesets : after.tilesets = world.tilesets) (hnext : after.nextTileset = world.nextTileset)
    (hschedulers : after.schedulers = world.schedulers) : Allocated after := by
  obtain ⟨hnumbered, hloading, hqueue, hdistinct⟩ := h
  refine ⟨?_, ?_, ?_, ?_⟩ <;> simp only [htilesets, hnext, World.QueueOf, hschedulers]
  · exact hnumbered
  · exact hloading
  · exact hqueue
  · exact hdistinct

theorem Current.congr {world after : World} (h : Current world) (htilesets : after.tilesets = world.tilesets)
    (htileset : after.tileset = world.tileset) (halive : after.alive = world.alive) : Current after := by
  obtain ⟨hexists, hunique, hcurrentAlive⟩ := h
  refine ⟨?_, ?_, ?_⟩ <;> simp only [htilesets, htileset, halive]
  · exact hexists
  · exact hunique
  · exact hcurrentAlive

/-- Popping a task leaves a queue of the same tileset's tasks. -/
theorem Allocated.pop {world : World} (h : Allocated world) {scheduler : Address} {task : Task}
    {rest : List Task} (hqueue : world.schedulers scheduler = some (task :: rest)) (main : MainThread) :
    Allocated { world with schedulers := Function.update world.schedulers scheduler (some rest), main } := by
  refine ⟨h.numbered, h.loading, fun id tileset htileset hheld => ?_, h.distinct⟩
  obtain ⟨queue, hown, htasks⟩ := h.queue id tileset htileset hheld
  by_cases heq : tileset.scheduler = scheduler
  · rw [heq, hqueue] at hown
    cases hown
    exact ⟨rest, by rw [heq]; exact Function.update_self .., fun other hother =>
      htasks other (List.mem_cons_of_mem _ hother)⟩
  · exact ⟨queue, (Function.update_of_ne heq ..).trans hown, htasks⟩

/-- Every tileset was there before, with the same schedulers and held if it is held now. -/
theorem Allocated.of_before {world after : World} (h : Allocated world)
    (hnext : after.nextTileset = world.nextTileset)
    (hbefore : ∀ other now, after.tilesets other = some now →
      ∃ before, world.tilesets other = some before ∧ now.scheduler = before.scheduler ∧ now.Loading ∧
        (now.Held → before.Held ∧ after.QueueOf before.scheduler other)) : Allocated after := by
  refine ⟨?_, ?_, ?_, ?_⟩
  · intro other now hnow
    obtain ⟨before, hworld, -⟩ := hbefore other now hnow
    rw [hnext]
    exact h.numbered other before hworld
  · intro other now hnow
    obtain ⟨-, -, -, hloading, -⟩ := hbefore other now hnow
    exact hloading
  · intro other now hnow hheld
    obtain ⟨before, -, hscheduler, -, hqueue⟩ := hbefore other now hnow
    rw [hscheduler]
    exact (hqueue hheld).2
  · intro left now right now' hnow hnow' hheld hheld' heq
    obtain ⟨before, hleft, hscheduler, -, hown⟩ := hbefore left now hnow
    obtain ⟨before', hright, hscheduler', -, hown'⟩ := hbefore right now' hnow'
    rw [hscheduler, hscheduler'] at heq
    exact h.distinct left before right before' hleft hright (hown hheld).1 (hown' hheld').1 heq

/-- One tileset changes, keeping its schedulers, and gets more tasks of its own. -/
theorem Allocated.change {world after : World} {id : TilesetId} {tileset tileset' : Tileset}
    (h : Allocated world) (htileset : world.tilesets id = some tileset) (hheld : tileset.Held)
    (hnext : after.nextTileset = world.nextTileset)
    (htileset' : after.tilesets id = some tileset')
    (hscheduler : tileset'.scheduler = tileset.scheduler) (hloading : tileset'.Loading)
    (hothers : ∀ other, other ≠ id → after.tilesets other = world.tilesets other)
    (htasks : ∃ tasks : List Task, (∀ task ∈ tasks, task.tileset = id) ∧
      after.schedulers tileset.scheduler = (world.schedulers tileset.scheduler).map (· ++ tasks))
    (hqueues : ∀ scheduler, scheduler ≠ tileset.scheduler →
      after.schedulers scheduler = world.schedulers scheduler) : Allocated after := by
  apply h.of_before hnext
  intro other now hnow
  by_cases hother : other = id
  · subst hother
    rw [htileset'] at hnow
    cases hnow
    refine ⟨tileset, htileset, hscheduler, hloading, fun _ => ⟨hheld, ?_⟩⟩
    obtain ⟨queue, hqueue, hown⟩ := h.queue _ _ htileset hheld
    obtain ⟨tasks, htasks, hafter⟩ := htasks
    refine ⟨queue ++ tasks, ?_, ?_⟩
    · rw [hafter, hqueue]
      rfl
    · intro task htask
      exact (List.mem_append.mp htask).elim (hown task) (htasks task)
  · rw [hothers other hother] at hnow
    refine ⟨now, hnow, rfl, h.loading _ _ hnow, fun hnowHeld => ⟨hnowHeld, ?_⟩⟩
    have hne : now.scheduler ≠ tileset.scheduler := fun heq =>
      hother (h.distinct _ _ _ _ hnow htileset hnowHeld hheld heq)
    obtain ⟨queue, hqueue, hown⟩ := h.queue _ _ hnow hnowHeld
    exact ⟨queue, (hqueues _ hne).trans hqueue, hown⟩

/-- A load's code keeps to its own tileset and queue. -/
theorem Allocated.effect {world after : World} {id : TilesetId} {tileset : Tileset}
    (h : Allocated world) (htileset : world.tilesets id = some tileset) (hheld : tileset.Held)
    (heffect : LoadEffect id tileset world after) : Allocated after := by
  obtain ⟨tileset', htileset', hadvances⟩ := heffect.object
  exact h.change htileset hheld heffect.runtime.nextTileset htileset' hadvances.scheduler
    (hadvances.loading (h.loading _ _ htileset)) heffect.others heffect.queue heffect.queues

theorem Current.effect {world after : World} {id : TilesetId} {tileset : Tileset}
    (h : Current world) (htileset : world.tilesets id = some tileset)
    (heffect : LoadEffect id tileset world after) : Current after := by
  obtain ⟨tileset', htileset', hadvances⟩ := heffect.object
  refine ⟨?_, ?_, ?_⟩
  · intro other hother
    rw [heffect.runtime.tileset] at hother
    obtain ⟨now, hnow, hdestroyed⟩ := h.exists_current other hother
    by_cases heq : other = id
    · subst heq
      rw [htileset] at hnow
      cases hnow
      exact ⟨tileset', htileset', hadvances.destroyed.trans hdestroyed⟩
    · exact ⟨now, (heffect.others other heq).trans hnow, hdestroyed⟩
  · intro other now hnow hdestroyed
    rw [heffect.runtime.tileset]
    by_cases heq : other = id
    · subst heq
      rw [htileset'] at hnow
      cases hnow
      exact h.unique _ _ htileset (hadvances.destroyed ▸ hdestroyed)
    · exact h.unique _ _ ((heffect.others other heq) ▸ hnow) hdestroyed
  · intro other hother
    rw [heffect.runtime.tileset] at hother
    rw [heffect.runtime.alive]
    exact h.alive other hother

/-! ### Creating and destroying tilesets -/

/-- A load that begins on a new tileset also begins on the world that has that tileset. -/
theorem LoadEffect.of_setTileset {world after : World} {id : TilesetId} {tileset : Tileset}
    (h : LoadEffect id tileset world after) :
    LoadEffect id tileset (world.setTileset id tileset) after where
  runtime := ⟨h.runtime.main, h.runtime.nextTileset, h.runtime.tileset, h.runtime.mainThreadScope,
    h.runtime.alive, h.runtime.ticking⟩
  object := h.object
  others other hother := (h.others other hother).trans (Function.update_of_ne hother ..).symm
  queue := h.queue
  queues := h.queues
  writes := h.writes

theorem Allocated.create {world : World} (h : Allocated world) {tileset : Tileset}
    (hfree : world.schedulers tileset.scheduler = none) (hloading : tileset.Loading) :
    Allocated ({ world with
      nextTileset := world.nextTileset + 1
      schedulers := Function.update world.schedulers tileset.scheduler (some []) }.setTileset
        world.nextTileset tileset) := by
  have hcases : ∀ {other : TilesetId} {now : Tileset},
      Function.update world.tilesets world.nextTileset (some tileset) other = some now →
      other = world.nextTileset ∧ now = tileset ∨ world.tilesets other = some now := by
    intro other now hnow
    by_cases hother : other = world.nextTileset
    · subst hother
      rw [Function.update_self] at hnow
      exact Or.inl ⟨rfl, (Option.some.inj hnow).symm⟩
    · rw [Function.update_of_ne hother] at hnow
      exact Or.inr hnow
  -- What is held is allocated, and the new schedulers were not.
  have hne : ∀ {other : TilesetId} {now : Tileset}, world.tilesets other = some now → now.Held →
      now.scheduler ≠ tileset.scheduler := by
    intro other now hnow hheld heq
    obtain ⟨queue, hqueue, -⟩ := h.queue _ _ hnow hheld
    rw [heq, hfree] at hqueue
    cases hqueue
  refine ⟨?_, ?_, ?_, ?_⟩
  · intro other now hnow
    rcases hcases hnow with ⟨rfl, -⟩ | hbefore
    · exact Nat.lt_succ_self _
    · exact Nat.lt_succ_of_lt (h.numbered _ _ hbefore)
  · intro other now hnow
    rcases hcases hnow with ⟨-, rfl⟩ | hbefore
    · exact hloading
    · exact h.loading _ _ hbefore
  · intro other now hnow hheld
    rcases hcases hnow with ⟨rfl, rfl⟩ | hbefore
    · exact ⟨[], Function.update_self .., by simp⟩
    · obtain ⟨queue, hqueue, hown⟩ := h.queue _ _ hbefore hheld
      exact ⟨queue, (Function.update_of_ne (hne hbefore hheld) ..).trans hqueue, hown⟩
  · intro left now right now' hnow hnow' hheld hheld' heq
    rcases hcases hnow with ⟨rfl, rfl⟩ | hbefore <;> rcases hcases hnow' with ⟨rfl, rfl⟩ | hbefore'
    · rfl
    · exact absurd heq.symm (hne hbefore' hheld')
    · exact absurd heq (hne hbefore hheld)
    · exact h.distinct _ _ _ _ hbefore hbefore' hheld hheld' heq

namespace World

theorem destroyTileset_tilesets (world : World) (id : TilesetId) :
    (world.destroyTileset id).tilesets = Function.update world.tilesets id
      ((world.tilesets id).map fun tileset => { tileset with destroyed := true }) := by
  rw [destroyTileset]
  cases h : world.tilesets id with
  | none => exact (Function.update_eq_self_iff.mpr h.symm).symm
  | some tileset =>
      simp only
      split_ifs <;> rfl

theorem destroyTileset_runtime (world : World) (id : TilesetId) :
    world.SameRuntime (world.destroyTileset id) := by
  rw [destroyTileset]
  cases world.tilesets id with
  | none => exact .refl _
  | some tileset =>
      simp only
      split_ifs <;> exact ⟨rfl, rfl, rfl, rfl, rfl, rfl⟩

theorem destroyTileset_writes (world : World) (id : TilesetId) :
    (world.destroyTileset id).writes = world.writes := by
  rw [destroyTileset]
  cases world.tilesets id with
  | none => rfl
  | some tileset =>
      simp only
      split_ifs <;> rfl

theorem destroyTileset_schedulers {world : World} {id : TilesetId} {tileset : Tileset}
    (h : world.tilesets id = some tileset) (scheduler : Address) :
    (world.destroyTileset id).schedulers scheduler =
      if tileset.manager.rootTileAvailable ≠ .pending ∧ scheduler = tileset.scheduler then none
      else world.schedulers scheduler := by
  rw [destroyTileset, h]
  simp only
  by_cases hpending : tileset.manager.rootTileAvailable = .pending
  · rw [if_pos hpending, if_neg fun hand => hand.1 hpending]
    rfl
  · rw [if_neg hpending]
    by_cases hscheduler : scheduler = tileset.scheduler
    · rw [if_pos ⟨hpending, hscheduler⟩, hscheduler]
      exact Function.update_self ..
    · rw [if_neg fun hand => hscheduler hand.2]
      exact Function.update_of_ne hscheduler ..

end World

/-- The schedulers go with a tileset whose load is over, and no other tileset holds them. -/
theorem Allocated.destroyTileset {world : World} (h : Allocated world) {id : TilesetId}
    (hheld : ∀ tileset, world.tilesets id = some tileset → tileset.Held) :
    Allocated (world.destroyTileset id) := by
  cases hid : world.tilesets id with
  | none =>
      have hsame : world.destroyTileset id = world := by rw [World.destroyTileset, hid]
      exact hsame.symm ▸ h
  | some tileset =>
      have hown := hheld tileset hid
      apply h.of_before (world.destroyTileset_runtime id).nextTileset
      intro other now hnow
      rw [World.destroyTileset_tilesets, hid] at hnow
      by_cases hother : other = id
      · subst hother
        rw [Function.update_self] at hnow
        cases hnow
        have hloading : tileset.Loading := h.loading _ _ hid
        refine ⟨tileset, hid, rfl, hloading, fun hnowHeld => ⟨hown, ?_⟩⟩
        have hpending : tileset.manager.rootTileAvailable = .pending := hnowHeld.resolve_left (by simp)
        obtain ⟨queue, hqueue, htasks⟩ := h.queue _ _ hid hown
        refine ⟨queue, ?_, htasks⟩
        rw [World.destroyTileset_schedulers hid, if_neg fun hand => hand.1 hpending, hqueue]
      · rw [Function.update_of_ne hother] at hnow
        refine ⟨now, hnow, rfl, h.loading _ _ hnow, fun hnowHeld => ⟨hnowHeld, ?_⟩⟩
        obtain ⟨queue, hqueue, htasks⟩ := h.queue _ _ hnow hnowHeld
        refine ⟨queue, ?_, htasks⟩
        rw [World.destroyTileset_schedulers hid, if_neg, hqueue]
        rintro ⟨-, heq⟩
        exact hother (h.distinct _ _ _ _ hnow hid hnowHeld hown heq)

end QtCesium

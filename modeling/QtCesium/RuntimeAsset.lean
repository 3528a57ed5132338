import QtCesium.RuntimeSteps

/-! Which asset a start loads. The id goes through `strtoll`, a parameter of type `int64_t`, a cast to
`uint32_t` and the factory's test that it is positive; the status announces the number from before the
cast. -/

namespace QtCesium

open Decimal

/-- The text is a numeral of an asset id that an endpoint URL can name. -/
def NamesAsset (s : Bytes) (assetId : Int) : Prop :=
  Numeral s assetId ∧ 1 ≤ assetId ∧ assetId ≤ 2 ^ 32 - 1

variable (readers : Readers) (network : Network)

/-- The start loads the configured asset, or none when none is configured: the endpoint URL and the text
that announces the root tile name the same asset as the configuration. -/
structure LoadsConfiguredAsset (world : World) (environment : Environment) (scheduler : Address)
    (early : Nat) : Prop where
  returns : (world.startFromEnvironment readers network environment scheduler early).1 = true ↔
    ∃ assetId, NamesAsset environment.assetIdValue assetId
  loads : (world.startFromEnvironment readers network environment scheduler early).1 = true →
    ∃ assetId id tileset, NamesAsset environment.assetIdValue assetId ∧
      (world.startFromEnvironment readers network environment scheduler early).2.tileset = some id ∧
      (world.startFromEnvironment readers network environment scheduler early).2.tilesets id =
        some tileset ∧
      tileset.loaderFactory.ionLoad.url = CesiumIonTilesetContentLoaderFactory.endpointUrl
        (text "https://api.cesium.com/") assetId.toNat environment.token ∧
      tileset.onRootTileAvailable = some assetId
  refuses : (¬∃ assetId, NamesAsset environment.assetIdValue assetId) →
    (world.startFromEnvironment readers network environment scheduler early).1 = false ∧
      (world.startFromEnvironment readers network environment scheduler early).2.tileset =
        world.tileset ∧
      (world.startFromEnvironment readers network environment scheduler early).2.mainThreadScope =
        world.mainThreadScope

/-! ### The text -/

/-- A numeral has no NUL in it. -/
theorem Numeral.cStr_bytes {s : Bytes} {n : Int} (h : Numeral s n) : (cStr s).bytes = s := by
  apply cStr_of_notMem
  intro hnul
  obtain ⟨blanks, sign, digits, rfl, hblanks, -, hdigits, hsign⟩ := h
  rcases List.mem_append.mp hnul with hnul | hdigit
  · rcases List.mem_append.mp hnul with hblank | hmem
    · exact absurd (hblanks 0 hblank) (by decide)
    · rcases hsign with ⟨rfl | rfl, -⟩ | ⟨rfl, -⟩
      · cases hmem
      · exact absurd hmem (by decide)
      · exact absurd hmem (by decide)
  · exact absurd (hdigits 0 hdigit) (by decide)

theorem Numeral.ne_nil {s : Bytes} {n : Int} (h : Numeral s n) : s ≠ [] := by
  obtain ⟨blanks, sign, digits, rfl, -, hne, -⟩ := h
  simp [hne]

theorem NamesAsset.strtoll {s : Bytes} {assetId : Int} (h : NamesAsset s assetId) :
    QtCesium.strtoll (cStr s) = (assetId, []) := by
  obtain ⟨hnumeral, hmin, hmax⟩ := h
  have hcStr : Numeral (cStr s).bytes assetId := by rw [hnumeral.cStr_bytes]; exact hnumeral
  have hlow : longLongMin ≤ assetId := by rw [longLongMin]; omega
  have hhigh : assetId ≤ longLongMax := by rw [longLongMax]; omega
  rw [strtoll_of_numeral hcStr, toLongLong_of_mem hlow hhigh]

/-- The checks a start makes of the asset id. -/
theorem Environment.accepted_iff {environment : Environment} (htoken : environment.token ≠ []) :
    environment.accepted = true ↔ environment.assetIdValue ≠ [] ∧
      ((cStr environment.assetIdValue).bytes = [] ∨
        ∃ n, Numeral (cStr environment.assetIdValue).bytes n) := by
  rw [Environment.accepted, Bool.and_eq_true, Bool.and_eq_true, bne_iff_ne, bne_iff_ne, beq_iff_eq,
    strtoll_rest_eq_nil_iff]
  exact ⟨fun h => ⟨h.1.2, h.2⟩, fun h => ⟨⟨htoken, h.1⟩, h.2⟩⟩

theorem NamesAsset.accepted {environment : Environment} {assetId : Int}
    (htoken : environment.token ≠ []) (h : NamesAsset environment.assetIdValue assetId) :
    environment.accepted = true := by
  rw [Environment.accepted_iff htoken]
  exact ⟨h.1.ne_nil, Or.inr ⟨assetId, by rw [h.1.cStr_bytes]; exact h.1⟩⟩

/-! ### The endpoint URL -/

/-- The cast keeps the ids that fit. -/
theorem ionFactory_url {assetId : Int} (hmin : 1 ≤ assetId) (hmax : assetId ≤ 2 ^ 32 - 1) (token : Bytes) :
    (World.ionFactory assetId token).ionLoad.url = CesiumIonTilesetContentLoaderFactory.endpointUrl
      (text "https://api.cesium.com/") assetId.toNat token := by
  have hcast : (UInt32.ofInt assetId).toNat = assetId.toNat := by
    rw [UInt32.ofInt, UInt32.toNat_ofNat']
    omega
  calc
    _ = CesiumIonTilesetContentLoaderFactory.endpointUrl (text "https://api.cesium.com/")
        (UInt32.ofInt assetId).toNat token := rfl
    _ = _ := by rw [hcast]

/-! ### The start -/

section

variable {world : World} {environment : Environment} {scheduler : Address} {early : Nat}

/-- A start that refuses its configuration changes the status only. -/
theorem loadsConfiguredAsset_of_refused (htoken : environment.token ≠ [])
    (hrefused : environment.accepted = false) :
    LoadsConfiguredAsset readers network world environment scheduler early := by
  obtain ⟨status, hstart⟩ :=
    World.startFromEnvironment_of_not_accepted readers network hrefused world scheduler early
  have hnone : ¬∃ assetId, NamesAsset environment.assetIdValue assetId := by
    rintro ⟨assetId, hnames⟩
    rw [hnames.accepted htoken] at hrefused
    cases hrefused
  have hreturned : (world.startFromEnvironment readers network environment scheduler early).1 ≠ true := by
    rw [hstart]
    exact Bool.false_ne_true
  refine ⟨⟨fun h => absurd h hreturned, fun h => absurd h hnone⟩, fun h => absurd h hreturned, fun _ => ?_⟩
  rw [hstart]
  exact ⟨rfl, rfl, rfl⟩

theorem loadsConfiguredAsset_of_names {assetId : Int} (horderly : Orderly world)
    (hfree : world.schedulers scheduler = none) (htoken : environment.token ≠ [])
    (hnames : NamesAsset environment.assetIdValue assetId) :
    LoadsConfiguredAsset readers network world environment scheduler early := by
  have hstart := World.startFromEnvironment_of_accepted readers network (hnames.accepted htoken) world
    scheduler early
  have hparsed : environment.parsedAssetId = assetId := by
    rw [Environment.parsedAssetId, hnames.strtoll]
  obtain ⟨tileset, htileset, -, hfactory, hattached, -⟩ :=
    (started readers network horderly.allocated horderly.current hfree environment.parsedAssetId
      environment.token early).object
  have hcurrent := (started readers network horderly.allocated horderly.current hfree
    environment.parsedAssetId environment.token early).tileset
  refine ⟨?_, fun _ => ?_, fun hnone => absurd ⟨assetId, hnames⟩ hnone⟩
  · rw [hstart]
    exact ⟨fun _ => ⟨assetId, hnames⟩, fun _ => rfl⟩
  · rw [hstart]
    refine ⟨assetId, world.nextTileset, tileset, hnames, hcurrent, htileset, ?_, ?_⟩
    · rw [hfactory, hparsed]
      exact ionFactory_url hnames.2.1 hnames.2.2 environment.token
    · rw [hattached, hparsed]

end

/-- An asset id that the cast to `uint32_t` turns into 1. -/
def wrappingEnvironment : Environment where
  configFile := some (text "ion_access_token='token'\nion_asset_id=4294967297\n")
  getenv _ := none

end QtCesium

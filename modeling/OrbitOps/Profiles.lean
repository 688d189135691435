import OrbitOps.AlarmPolicy
import OrbitOps.Link.Config
import OrbitOps.TomlFields

/-!
# Mission profiles

A profile can only hold what its constructor accepts. The parser reads it from a TOML document and
turns every `TypeError` and `ValueError` on the way into its own error. A rate that is an integer
too large for `float` is the one thing that gets past it.
-/

namespace OrbitOps.Profiles
open Py Toml Link

def MISSION_PROFILE_SCHEMA_VERSION : Nat := 1

def TOP_LEVEL_KEYS : List String := ["schema_version", "name", "description", "link"]
def REQUIRED_TOP_LEVEL_KEYS : List String := ["schema_version", "name", "link"]
def LINK_KEYS : List String :=
  ["seed", "loss_rate", "duplicate_rate", "corrupt_rate", "latency_ms", "jitter_ms", "reorder_window"]

/-- Validated, immutable mission-profile definition; names and descriptions are as in alarm policies. -/
structure MissionProfile where
  name : String
  description : Option String
  linkConfig : LinkConfig
  name_ok : isPolicyName name = true
  description_ok : ∀ s ∈ description, isDescription s = true

/-- Every profile has the one supported version. -/
def MissionProfile.schemaVersion (_ : MissionProfile) : Nat := MISSION_PROFILE_SCHEMA_VERSION

def MissionProfile.new (schemaVersion name description : Json) (linkConfig : LinkConfig) : Result MissionProfile :=
  match schemaVersion with
  | .int version =>
    if version ≠ 1 then .error (valueError s!"unsupported schema_version {version}; expected 1")
    else
      match name with
      | .str name =>
        if hname : isPolicyName name = true then do
          let ⟨description, hdescription⟩ ← requireDescription description
          return ⟨name, description, linkConfig, hname, hdescription⟩
        else .error (valueError ("name must be a lowercase slug of 1 to 64 characters using letters, digits, and " ++
          "hyphens; hyphens may not be leading or trailing"))
      | _ => .error (typeError "name must be a string")
  | _ => .error (typeError "schema_version must be an integer")

/-- `MissionProfileValidationError`, with the source in front of its text. -/
def validationError (source message : String) : PyError := ⟨.missionProfileValidationError, source ++ ": " ++ message⟩

def readInt (table : Table) (key : String) (default : Int) : Result Int :=
  asInt ("link." ++ key) (table.getD key (.int default))

def readRate (table : Table) (key : String) (default : Float64) : Result Float64 :=
  asReal ("link." ++ key) (table.getD key (.float default))

def readLinkConfig (link : Table) : Result LinkConfig := do
  let seed ← readInt link "seed" 0
  let lossRate ← readRate link "loss_rate" .zero
  let duplicateRate ← readRate link "duplicate_rate" .zero
  let corruptRate ← readRate link "corrupt_rate" .zero
  let latencyMs ← readInt link "latency_ms" 0
  let jitterMs ← readInt link "jitter_ms" 0
  let reorderWindow ← readInt link "reorder_window" 0
  LinkConfig.new (.int seed) (.float lossRate) (.float duplicateRate) (.float corruptRate) (.int latencyMs)
    (.int jitterMs) (.int reorderWindow)

/-- The fields of a document whose keys were checked. -/
def readProfile (document link : Table) : Result MissionProfile := do
  let schemaVersion ← readInt document "schema_version" 0
  let name ← requireString document "name"
  let description ← readOptionalString document "description"
  let linkConfig ← readLinkConfig link
  MissionProfile.new (.int schemaVersion) (.str name) (descriptionJson description) linkConfig

def profileFromMapping (document : Table) (source : String) : Result MissionProfile := do
  rejectUnknown (validationError source) "top-level " TOP_LEVEL_KEYS document
  rejectMissing (validationError source) "" REQUIRED_TOP_LEVEL_KEYS document
  let link ← getItem document "link" >>= asTable (validationError source) "link"
  rejectUnknown (validationError source) "link " LINK_KEYS link
  reraise (fun exc => validationError source exc.message) (readProfile document link)

/-- `parse_mission_profile`, for a `tomllib.loads` that gives the document or the text of a `TOMLDecodeError`. -/
def parseMissionProfile (loads : String → Except String Table) (document source : String) : Result MissionProfile :=
  if source.isEmpty then .error (valueError "source must not be empty")
  else
    match loads document with
    | .error exc => .error ⟨.missionProfileParseError, source ++ ": invalid TOML: " ++ exc⟩
    | .ok parsed => profileFromMapping parsed source

/-! ### What a document describes -/

structure ReadsRate (v : Toml) (rate : Rate) : Prop where
  value : v.real? = some rate.value
  given : rate.given = .float rate.value

/-- A link table with known keys and the values of a configuration, each with its type or left out at its default. -/
structure DescribesLink (link : Table) (config : LinkConfig) : Prop where
  keys : ∀ kv ∈ link, kv.1 ∈ LINK_KEYS
  seed : link.getD "seed" (.int 0) = .int config.seed
  lossRate : ReadsRate (link.getD "loss_rate" (.float .zero)) config.lossRate
  duplicateRate : ReadsRate (link.getD "duplicate_rate" (.float .zero)) config.duplicateRate
  corruptRate : ReadsRate (link.getD "corrupt_rate" (.float .zero)) config.corruptRate
  latencyMs : link.getD "latency_ms" (.int 0) = .int config.latencyMs
  jitterMs : link.getD "jitter_ms" (.int 0) = .int config.jitterMs
  reorderWindow : link.getD "reorder_window" (.int 0) = .int config.reorderWindow

/-- A document with known keys and the fields of a profile; what their values have to satisfy is in `MissionProfile`. -/
structure DescribesProfile (document : Table) (profile : MissionProfile) : Prop where
  keys : ∀ kv ∈ document, kv.1 ∈ TOP_LEVEL_KEYS
  schemaVersion : lookupKey document "schema_version" = some (.int 1)
  name : lookupKey document "name" = some (.str profile.name)
  description : lookupKey document "description" = profile.description.map .str
  link : ∃ link : Table, lookupKey document "link" = some (.table link) ∧ DescribesLink link profile.linkConfig

/-- The rates of a link table, in the order in which they are converted. -/
def rateItems (link : Table) : List Toml :=
  ["loss_rate", "duplicate_rate", "corrupt_rate"].map fun key => link.getD key (.float .zero)

/-- The parser gets as far as the rates, and one of them is an integer too large for `float`. -/
structure ProfileOverflows (document : Table) : Prop where
  keys : ∀ kv ∈ document, kv.1 ∈ TOP_LEVEL_KEYS
  schemaVersion : ∃ n, lookupKey document "schema_version" = some (.int n)
  name : ∃ s, lookupKey document "name" = some (.str s)
  description : ∃ s : Option String, lookupKey document "description" = s.map .str
  link : ∃ link : Table, lookupKey document "link" = some (.table link) ∧ (∀ kv ∈ link, kv.1 ∈ LINK_KEYS) ∧
    (∃ n, link.getD "seed" (.int 0) = .int n) ∧ Overflows (rateItems link)

/-! ### The parser returns what the document describes -/

theorem MissionProfile.new_eq_ok {schemaVersion name description : Json} {config : LinkConfig} {p : MissionProfile} :
    MissionProfile.new schemaVersion name description config = .ok p ↔
      schemaVersion = .int 1 ∧ name = .str p.name ∧ description = descriptionJson p.description ∧
      config = p.linkConfig := by
  constructor
  · intro h
    cases schemaVersion with
    | int version =>
      simp only [MissionProfile.new] at h
      obtain ⟨hversion, h⟩ := except_guard_eq_ok.mp h
      cases name with
      | str name =>
        simp only at h
        split_ifs at h
        obtain ⟨d, hd, h⟩ := except_bind_eq_ok.mp h
        cases h
        exact ⟨congrArg Json.int (not_not.mp hversion), rfl, requireDescription_eq_ok.mp hd, rfl⟩
      | _ => cases h
    | _ => cases h
  · rintro ⟨rfl, rfl, hd, rfl⟩
    simp only [MissionProfile.new]
    rw [if_neg (fun h => h rfl), dif_pos p.name_ok]
    exact except_bind_eq_ok.mpr ⟨⟨p.description, p.description_ok⟩, requireDescription_eq_ok.mpr hd, rfl⟩

theorem descriptionJson_injective {d d' : Option String} (h : descriptionJson d = descriptionJson d') : d = d' := by
  cases d <;> cases d' <;> cases h <;> rfl

theorem lookupKey_of_getD {table : Table} {key : String} {v : Toml} {n : Int}
    (hkey : ∃ v, lookupKey table key = some v) (h : table.getD key v = .int n) : lookupKey table key = some (.int n) := by
  obtain ⟨v', hv⟩ := hkey
  rw [Table.getD, hv, Option.getD_some] at h
  rw [hv, h]

theorem getD_of_lookupKey {table : Table} {key : String} {v default : Toml} (h : lookupKey table key = some v) :
    table.getD key default = v := by
  rw [Table.getD, h, Option.getD_some]

theorem readInt_eq_ok {table : Table} {key : String} {default n : Int} :
    readInt table key default = .ok n ↔ table.getD key (.int default) = .int n := asInt_eq_ok

theorem readRate_eq_ok {table : Table} {key : String} {default x : Float64} :
    readRate table key default = .ok x ↔ (table.getD key (.float default)).real? = some x := asReal_eq_ok

/-- A rate that was given as the double `x` reads a number that has this double. -/
theorem readsRate_iff {v : Toml} {rate : Rate} :
    ReadsRate v rate ↔ ∃ x, v.real? = some x ∧ Json.float x = rate.given.toJson := by
  constructor
  · intro h
    exact ⟨rate.value, h.value, by rw [h.given]; rfl⟩
  · rintro ⟨x, hx, hgiven⟩
    have hg : rate.given = .float x := by
      cases hrate : rate.given with
      | int n => rw [hrate] at hgiven; cases hgiven
      | float y => rw [hrate] at hgiven; cases hgiven; rfl
    have hv : x = rate.value := by
      have h := rate.value_eq
      rw [hg] at h
      exact Option.some.inj h
    subst hv
    exact ⟨hx, hg⟩

theorem readLinkConfig_eq_ok {link : Table} {config : LinkConfig} (hkeys : ∀ kv ∈ link, kv.1 ∈ LINK_KEYS) :
    readLinkConfig link = .ok config ↔ DescribesLink link config := by
  constructor
  · intro h
    obtain ⟨seed, hs, h⟩ := except_bind_eq_ok.mp h
    obtain ⟨loss, hl, h⟩ := except_bind_eq_ok.mp h
    obtain ⟨duplicate, hd, h⟩ := except_bind_eq_ok.mp h
    obtain ⟨corrupt, hc, h⟩ := except_bind_eq_ok.mp h
    obtain ⟨latency, hla, h⟩ := except_bind_eq_ok.mp h
    obtain ⟨jitter, hj, h⟩ := except_bind_eq_ok.mp h
    obtain ⟨window, hr, h⟩ := except_bind_eq_ok.mp h
    obtain ⟨hs', hl', hd', hc', hla', hj', hr'⟩ := LinkConfig.new_eq_ok.mp h
    refine ⟨hkeys, ?_, readsRate_iff.mpr ⟨loss, readRate_eq_ok.mp hl, hl'⟩,
      readsRate_iff.mpr ⟨duplicate, readRate_eq_ok.mp hd, hd'⟩, readsRate_iff.mpr ⟨corrupt, readRate_eq_ok.mp hc, hc'⟩,
      ?_, ?_, ?_⟩
    · rw [readInt_eq_ok.mp hs, Json.int.inj hs']
    · rw [readInt_eq_ok.mp hla, Json.int.inj hla']
    · rw [readInt_eq_ok.mp hj, Json.int.inj hj']
    · rw [readInt_eq_ok.mp hr, Json.int.inj hr']
  · intro h
    obtain ⟨loss, hl, hl'⟩ := readsRate_iff.mp h.lossRate
    obtain ⟨duplicate, hd, hd'⟩ := readsRate_iff.mp h.duplicateRate
    obtain ⟨corrupt, hc, hc'⟩ := readsRate_iff.mp h.corruptRate
    refine except_bind_eq_ok.mpr ⟨_, readInt_eq_ok.mpr h.seed, ?_⟩
    refine except_bind_eq_ok.mpr ⟨_, readRate_eq_ok.mpr hl, ?_⟩
    refine except_bind_eq_ok.mpr ⟨_, readRate_eq_ok.mpr hd, ?_⟩
    refine except_bind_eq_ok.mpr ⟨_, readRate_eq_ok.mpr hc, ?_⟩
    refine except_bind_eq_ok.mpr ⟨_, readInt_eq_ok.mpr h.latencyMs, ?_⟩
    refine except_bind_eq_ok.mpr ⟨_, readInt_eq_ok.mpr h.jitterMs, ?_⟩
    refine except_bind_eq_ok.mpr ⟨_, readInt_eq_ok.mpr h.reorderWindow, ?_⟩
    exact LinkConfig.new_eq_ok.mpr ⟨rfl, hl', hd', hc', rfl, rfl, rfl⟩

theorem rejectMissing_topLevel {document : Table} {source : String} {version name link : Toml}
    (hversion : lookupKey document "schema_version" = some version) (hname : lookupKey document "name" = some name)
    (hlink : lookupKey document "link" = some link) :
    rejectMissing (validationError source) "" REQUIRED_TOP_LEVEL_KEYS document = .ok () := by
  rw [rejectMissing_eq_ok]
  simp only [REQUIRED_TOP_LEVEL_KEYS, List.forall_mem_cons, List.not_mem_nil, false_imp_iff, implies_true, and_true]
  exact ⟨⟨_, hversion⟩, ⟨_, hname⟩, ⟨_, hlink⟩⟩

/-- A profile is returned exactly for a document that describes it. -/
theorem profileFromMapping_eq_ok {document : Table} {source : String} {p : MissionProfile} :
    profileFromMapping document source = .ok p ↔ DescribesProfile document p := by
  constructor
  · intro h
    obtain ⟨⟨⟩, hknown, h⟩ := except_bind_eq_ok.mp h
    obtain ⟨⟨⟩, hrequired, h⟩ := except_bind_eq_ok.mp h
    obtain ⟨link, hlink, h⟩ := except_bind_eq_ok.mp h
    obtain ⟨v, hv, hlink⟩ := except_bind_eq_ok.mp hlink
    obtain ⟨⟨⟩, hlinkKeys, h⟩ := except_bind_eq_ok.mp h
    obtain ⟨version, hversion, h⟩ := except_bind_eq_ok.mp (reraise_eq_ok.mp h)
    obtain ⟨name, hname, h⟩ := except_bind_eq_ok.mp h
    obtain ⟨description, hdescription, h⟩ := except_bind_eq_ok.mp h
    obtain ⟨config, hconfig, h⟩ := except_bind_eq_ok.mp h
    obtain ⟨hversion', hname', hdescription', rfl⟩ := MissionProfile.new_eq_ok.mp h
    cases hversion'
    cases hname'
    cases descriptionJson_injective hdescription'
    cases asTable_eq_ok.mp hlink
    exact {
      keys := rejectUnknown_eq_ok.mp hknown
      schemaVersion := lookupKey_of_getD (rejectMissing_eq_ok.mp hrequired _ (by simp [REQUIRED_TOP_LEVEL_KEYS]))
        (readInt_eq_ok.mp hversion)
      name := requireString_eq_ok.mp hname
      description := readOptionalString_eq_ok.mp hdescription
      link := ⟨link, getItem_eq_ok.mp hv, (readLinkConfig_eq_ok (rejectUnknown_eq_ok.mp hlinkKeys)).mp hconfig⟩ }
  · intro h
    obtain ⟨link, hlink, hdescribes⟩ := h.link
    refine except_bind_eq_ok.mpr ⟨(), rejectUnknown_eq_ok.mpr h.keys, ?_⟩
    refine except_bind_eq_ok.mpr ⟨(), rejectMissing_topLevel h.schemaVersion h.name hlink, ?_⟩
    refine except_bind_eq_ok.mpr
      ⟨link, except_bind_eq_ok.mpr ⟨_, getItem_eq_ok.mpr hlink, asTable_eq_ok.mpr rfl⟩, ?_⟩
    refine except_bind_eq_ok.mpr ⟨(), rejectUnknown_eq_ok.mpr hdescribes.keys, reraise_eq_ok.mpr ?_⟩
    refine except_bind_eq_ok.mpr ⟨_, readInt_eq_ok.mpr (getD_of_lookupKey h.schemaVersion), ?_⟩
    refine except_bind_eq_ok.mpr ⟨_, requireString_eq_ok.mpr h.name, ?_⟩
    refine except_bind_eq_ok.mpr ⟨_, readOptionalString_eq_ok.mpr h.description, ?_⟩
    refine except_bind_eq_ok.mpr ⟨_, (readLinkConfig_eq_ok hdescribes.keys).mpr hdescribes, ?_⟩
    exact MissionProfile.new_eq_ok.mpr ⟨rfl, rfl, rfl, rfl⟩

/-! ### What gets past the parser -/

theorem MissionProfile.catchable_new (schemaVersion name description : Json) (config : LinkConfig) :
    Catchable (MissionProfile.new schemaVersion name description config) := by
  cases schemaVersion with
  | int version =>
    simp only [MissionProfile.new]
    refine catchable_guard rfl ?_
    cases name with
    | str name =>
      simp only
      split_ifs
      · exact (catchable_requireDescription _).bind fun _ => catchable_ok _
      · exact catchable_valueError _
    | _ => exact catchable_typeError _
  | _ => exact catchable_typeError _

theorem catchable_readInt (table : Table) (key : String) (default : Int) : Catchable (readInt table key default) :=
  catchable_asInt _

theorem catchable_readLinkConfig_iff {link : Table} :
    Catchable (readLinkConfig link) ↔ ∀ n, link.getD "seed" (.int 0) = .int n → ¬Overflows (rateItems link) := by
  -- only the three conversions can raise what is not caught
  have hrest (loss duplicate corrupt : Float64) (seed : Int) : Catchable (do
      let latencyMs ← readInt link "latency_ms" 0
      let jitterMs ← readInt link "jitter_ms" 0
      let reorderWindow ← readInt link "reorder_window" 0
      LinkConfig.new (.int seed) (.float loss) (.float duplicate) (.float corrupt) (.int latencyMs)
        (.int jitterMs) (.int reorderWindow)) :=
    (catchable_readInt _ _ _).bind fun _ => (catchable_readInt _ _ _).bind fun _ =>
      (catchable_readInt _ _ _).bind fun _ => LinkConfig.catchable_new _ _ _ _ _ _ _
  rw [readLinkConfig, catchable_bind_iff, and_iff_right (catchable_readInt _ _ _)]
  refine forall_congr' fun seed => ?_
  rw [readInt_eq_ok]
  refine forall_congr' fun _ => ?_
  refine catchable_asReal_bind fun loss _ => ?_
  refine catchable_asReal_bind fun duplicate _ => ?_
  refine catchable_asReal_bind fun corrupt _ => ?_
  exact iff_of_true (hrest loss duplicate corrupt seed) not_false

theorem isTypeOrValueError_validationError (source message : String) :
    (validationError source message).isTypeOrValueError = true := rfl

/-- Nothing but the overflow of a rate gets past the parser. -/
theorem catchable_profileFromMapping_iff {document : Table} {source : String} :
    Catchable (profileFromMapping document source) ↔ ¬ProfileOverflows document := by
  have hcls := isTypeOrValueError_validationError source
  constructor
  · intro h ho
    obtain ⟨link, hlink, hlinkKeys, ⟨seed, hseed⟩, hover⟩ := ho.link
    obtain ⟨version, hversion⟩ := ho.schemaVersion
    obtain ⟨name, hname⟩ := ho.name
    obtain ⟨description, hdescription⟩ := ho.description
    have h := (catchable_bind_iff.mp h).2 () (rejectUnknown_eq_ok.mpr ho.keys)
    have h := (catchable_bind_iff.mp h).2 () (rejectMissing_topLevel hversion hname hlink)
    have h := (catchable_bind_iff.mp h).2 link
      (except_bind_eq_ok.mpr ⟨_, getItem_eq_ok.mpr hlink, asTable_eq_ok.mpr rfl⟩)
    have h := (catchable_bind_iff.mp h).2 () (rejectUnknown_eq_ok.mpr hlinkKeys)
    have h := (catchable_reraise_iff fun _ => hcls _).mp h
    have h := (catchable_bind_iff.mp h).2 version (readInt_eq_ok.mpr (getD_of_lookupKey hversion))
    have h := (catchable_bind_iff.mp h).2 name (requireString_eq_ok.mpr hname)
    have h := (catchable_bind_iff.mp h).2 description (readOptionalString_eq_ok.mpr hdescription)
    exact catchable_readLinkConfig_iff.mp (catchable_bind_iff.mp h).1 seed hseed hover
  · intro hno
    refine catchable_bind_iff.mpr ⟨catchable_rejectUnknown hcls, fun _ hkeys => ?_⟩
    refine catchable_bind_iff.mpr ⟨catchable_rejectMissing hcls, fun _ hrequired => ?_⟩
    have hhas := rejectMissing_eq_ok.mp hrequired
    refine catchable_bind_iff.mpr
      ⟨(catchable_getItem (hhas "link" (by simp [REQUIRED_TOP_LEVEL_KEYS]))).bind (catchable_asTable hcls), ?_⟩
    intro link hlink
    refine catchable_bind_iff.mpr ⟨catchable_rejectUnknown hcls, fun _ hlinkKeys => ?_⟩
    refine (catchable_reraise_iff fun _ => hcls _).mpr ?_
    refine catchable_bind_iff.mpr ⟨catchable_readInt _ _ _, fun version hversion => ?_⟩
    refine catchable_bind_iff.mpr
      ⟨catchable_requireString (hhas "name" (by simp [REQUIRED_TOP_LEVEL_KEYS])), fun name hname => ?_⟩
    refine catchable_bind_iff.mpr ⟨catchable_readOptionalString, fun description hdescription => ?_⟩
    refine catchable_bind_iff.mpr ⟨?_, fun _ _ => MissionProfile.catchable_new _ _ _ _⟩
    refine catchable_readLinkConfig_iff.mpr fun seed hseed hover => hno ?_
    obtain ⟨v, hv, hlink⟩ := except_bind_eq_ok.mp hlink
    cases asTable_eq_ok.mp hlink
    exact {
      keys := rejectUnknown_eq_ok.mp hkeys
      schemaVersion := ⟨version, lookupKey_of_getD (hhas _ (by simp [REQUIRED_TOP_LEVEL_KEYS]))
        (readInt_eq_ok.mp hversion)⟩
      name := ⟨name, requireString_eq_ok.mp hname⟩
      description := ⟨description, readOptionalString_eq_ok.mp hdescription⟩
      link := ⟨link, getItem_eq_ok.mp hv, rejectUnknown_eq_ok.mp hlinkKeys, ⟨seed, hseed⟩, hover⟩ }

theorem owned_profileFromMapping (document : Table) (source : String) :
    Owned .missionProfileValidationError (profileFromMapping document source) := by
  have hcls (text : String) : (validationError source text).cls = .missionProfileValidationError := rfl
  exact (owned_rejectUnknown hcls).bind fun _ => (owned_rejectMissing hcls).bind fun _ =>
    (owned_getItem.bind (owned_asTable hcls)).bind fun _ => (owned_rejectUnknown hcls).bind fun _ =>
    owned_reraise (fun _ => hcls _) _

/-- The mission-profile parser ends properly on every document but those with a rate that is too large. -/
theorem proper_parseMissionProfile_iff {loads : String → Except String Table} {text source : String}
    {document : Table} (hsource : source ≠ "") (hloads : loads text = .ok document) :
    Proper (DescribesProfile document) .missionProfileValidationError (parseMissionProfile loads text source) ↔
      ¬ProfileOverflows document := by
  have hparse : parseMissionProfile loads text source = profileFromMapping document source := by
    rw [parseMissionProfile, if_neg (by rwa [String.isEmpty_iff]), hloads]
  have hcatchable : Catchable (profileFromMapping document source) ↔ ¬ProfileOverflows document :=
    catchable_profileFromMapping_iff
  rw [hparse, ← hcatchable]
  exact proper_iff_catchable (fun _ => profileFromMapping_eq_ok) (fun _ => rfl) (owned_profileFromMapping _ _)

end OrbitOps.Profiles

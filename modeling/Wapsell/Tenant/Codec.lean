import Wapsell.Models
import Wapsell.Postgres.Adapter

/-!
# Tenant rows

`PostgresTenantRepository` with its JSON codecs, `sdk/wapsell/tenant/
repository.py`, over the table of `infra/postgres/migrations/
002_tenants.sql`. Of pydantic the two configurations use the compact dump of
a model and its validation: a field of the declared type is taken as it is,
an absent one has its default, other keys are ignored; what becomes of a
value of another type is left to the `Coercions`.

A field of the declared type is all that a dump ever holds, so the round
trip rests on no coercion; the parameter is there because a row may have
been written by hand.
-/

namespace Wapsell

/-- The string value of the enumeration member. -/
def TenantStatus.value : TenantStatus → String
  | .provisioning => "PROVISIONING"
  | .active => "ACTIVE"
  | .suspended => "SUSPENDED"

/-- `TenantStatus(raw)`, `none` for the `ValueError`. -/
def TenantStatus.ofValue (raw : String) : Option TenantStatus :=
  [.provisioning, .active, .suspended].find? fun s => s.value = raw

theorem TenantStatus.ofValue_value (s : TenantStatus) :
    TenantStatus.ofValue s.value = some s := by
  cases s <;> rfl

namespace Tenants

open Lib Py Postgres

/-! ## Models as JSON -/

/-- What pydantic makes of a value of another type, `none` for the validation error. Nothing is
assumed of it. -/
structure Coercions where
  bool : Json → Option Bool
  int : Json → Option Int

/-- `model_dump_json()` of a model with these fields.

It is compact, without blanks, and a list or an object is written as JSON writes it. -/
def modelDumpJson (fields : List (String × Json)) : String := String.ofList (textOf [] (.obj fields))

/-- A `str` field. -/
def readStr : Json → Except Exc String
  | .str s => .ok s
  | _ => .error .valueError

/-- A `str | None` field. -/
def readOptStr : Json → Except Exc (Option String)
  | .null => .ok none
  | .str s => .ok (some s)
  | _ => .error .valueError

/-- The items of a `list[str]` field. -/
def readItems : List Json → Except Exc (List String)
  | [] => .ok []
  | item :: items => do
    let s ← readStr item
    let rest ← readItems items
    .ok (s :: rest)

/-- A `list[str]` field. -/
def readStrs : Json → Except Exc (List String)
  | .arr items => readItems items
  | _ => .error .valueError

variable (L : Coercions)

/-- A `bool` field. -/
def readBool : Json → Except Exc Bool
  | .bool b => .ok b
  | v =>
    match L.bool v with
    | some b => .ok b
    | none => .error .valueError

/-- An `int` field. -/
def readInt : Json → Except Exc Int
  | .int n => .ok n
  | v =>
    match L.int v with
    | some n => .ok n
    | none => .error .valueError

/-- A field of a model: what is read of its key, or the default.

A key that is there with a null is read, and not replaced by the default. -/
def modelField {α : Type} (fields : List (String × Json)) (key : String)
    (read : Json → Except Exc α) (default : α) : Except Exc α :=
  match Json.field key fields with
  | some v => read v
  | none => .ok default

/-- `SoulConfig.model_validate`.

Every field has a default, so the empty object is a configuration. -/
def validateSoul : Json → Except Exc SoulConfig
  | .obj fields => do
    let default : SoulConfig := {}
    let language ← modelField fields "language" readStr default.language
    let tone ← modelField fields "tone" readStr default.tone
    let mission ← modelField fields "mission" readStr default.mission
    let rules ← modelField fields "rules" readStrs default.rules
    let includeSkills ← modelField fields "include_skills" (readBool L) default.includeSkills
    .ok { language, tone, mission, rules, includeSkills }
  | _ => .error .valueError

/-- `HandoffConfig.model_validate`.

Every field has a default here too, and the URL may be null. -/
def validateHandoff : Json → Except Exc HandoffConfig
  | .obj fields => do
    let default : HandoffConfig := {}
    let enabled ← modelField fields "enabled" (readBool L) default.enabled
    let keywords ← modelField fields "keywords" readStrs default.keywords
    let webhookUrl ← modelField fields "webhook_url" readOptStr default.webhookUrl
    let handoffMessage ← modelField fields "handoff_message" readStr default.handoffMessage
    let autoPauseHours ← modelField fields "auto_pause_hours" (readInt L) default.autoPauseHours
    .ok { enabled, keywords, webhookUrl, handoffMessage, autoPauseHours }
  | _ => .error .valueError

/-- The fields of a `SoulConfig`, in order. -/
def soulFields (cfg : SoulConfig) : List (String × Json) :=
  [("language", .str cfg.language), ("tone", .str cfg.tone), ("mission", .str cfg.mission),
    ("rules", .arr (cfg.rules.map .str)), ("include_skills", .bool cfg.includeSkills)]

/-- The fields of a `HandoffConfig`, in order. -/
def handoffFields (cfg : HandoffConfig) : List (String × Json) :=
  [("enabled", .bool cfg.enabled), ("keywords", .arr (cfg.keywords.map .str)),
    ("webhook_url", cfg.webhookUrl.elim .null .str), ("handoff_message", .str cfg.handoffMessage),
    ("auto_pause_hours", .int cfg.autoPauseHours)]

/-- A configuration for its JSONB column. -/
def configToJson {α : Type} (fields : α → List (String × Json)) : Option α → Cell
  | none => .null
  | some cfg => .text (modelDumpJson (fields cfg))

/-- A JSONB cell as a configuration: `model_validate_json` of a text, `model_validate` of a value. -/
def jsonToConfig {α : Type} (validate : Json → Except Exc α) : Cell → Except Exc (Option α)
  | .null => .ok none
  | .json .null => .ok none
  | .json v => (validate v).map some
  | .text s =>
    match loads s with
    | some v => (validate v).map some
    | none => .error .valueError
  | _ => .error .valueError

/-- `_soul_to_json`. -/
def soulToJson : Option SoulConfig → Cell := configToJson soulFields

/-- `_json_to_soul`. -/
def jsonToSoul : Cell → Except Exc (Option SoulConfig) := jsonToConfig (validateSoul L)

/-- `_handoff_to_json`. -/
def handoffToJson : Option HandoffConfig → Cell := configToJson handoffFields

/-- `_json_to_handoff`. -/
def jsonToHandoff : Cell → Except Exc (Option HandoffConfig) := jsonToConfig (validateHandoff L)

/-! ## Rows -/

/-- `_row_to_tenant`. -/
def rowToTenant (row : List Cell) : Except Exc Tenant := do
  let created ← (cellAt row 8).asTime
  let id ← (cellAt row 0).asText
  let name ← (cellAt row 1).asText
  let slug ← (cellAt row 2).asText
  let status ← (cellAt row 3).asMember TenantStatus.ofValue
  let whatsappPhoneNumberId ← (cellAt row 4).asOptText
  let model ← (cellAt row 5).asText
  let soulConfig ← jsonToSoul L (cellAt row 6)
  let handoffConfig ← jsonToHandoff L (cellAt row 7)
  .ok
    { id, name, slug, status, whatsappPhoneNumberId, model, soulConfig, handoffConfig
      createdAt := created }

/-- `_COLS`. -/
def tenantColumns : Columns :=
  [("id", .text), ("name", .text), ("slug", .text), ("status", .text),
    ("whatsapp_phone_number_id", .text), ("model", .text), ("soul_config", .jsonb),
    ("handoff_config", .jsonb), ("created_at", .timestamptz)]

/-- What `PostgresTenantRepository` sends on `add` and reads on `get`. -/
def tenantAdapter : Adapter Tenant where
  columns := tenantColumns
  slots := [.plain, .plain, .plain, .plain, .plain, .plain, .jsonb, .jsonb, .plain]
  row t :=
    [.text t.id, .text t.name, .text t.slug, .text t.status.value,
      .ofText t.whatsappPhoneNumberId, .text t.model, soulToJson t.soulConfig,
      handoffToJson t.handoffConfig, .timestamp t.createdAt]
  id t := t.id
  ofRow := rowToTenant L

/-- What `update` sends: `_UPDATE_SQL`. -/
def tenantChange : Change Tenant where
  sets :=
    [("name", .plain), ("slug", .plain), ("status", .plain),
      ("whatsapp_phone_number_id", .plain), ("model", .plain), ("soul_config", .jsonb),
      ("handoff_config", .jsonb)]
  params t :=
    [.text t.name, .text t.slug, .text t.status.value, .ofText t.whatsappPhoneNumberId,
      .text t.model, soulToJson t.soulConfig, handoffToJson t.handoffConfig]
  missing := some fun t => s!"unknown tenant: {t.id}"

/-! ## The configurations come back -/

/-- The cell of a configuration. -/
def configCell {α : Type} (fields : α → List (String × Json)) : Option α → Cell
  | none => .null
  | some cfg => .json (.obj (fields cfg))

theorem wellFormedItems_texts : ∀ texts : List String,
    Json.wellFormedItems (texts.map .str) = true
  | [] => rfl
  | s :: texts => by
    rw [List.map_cons, Json.wellFormedItems, wellFormedItems_texts texts]
    rfl

theorem isStandardItems_texts : ∀ texts : List String, isStandardItems (texts.map .str) = true
  | [] => rfl
  | s :: texts => by
    rw [List.map_cons, isStandardItems, isStandardItems_texts texts]
    rfl

theorem wellFormed_soul (cfg : SoulConfig) : (Json.obj (soulFields cfg)).wellFormed = true := by
  simp [soulFields, Json.wellFormed, Json.wellFormedFields, wellFormedItems_texts]

theorem wellFormed_handoff (cfg : HandoffConfig) :
    (Json.obj (handoffFields cfg)).wellFormed = true := by
  cases h : cfg.webhookUrl <;>
    simp [handoffFields, Json.wellFormed, Json.wellFormedFields, wellFormedItems_texts, h]

theorem isStandard_soul (cfg : SoulConfig) : isStandard (.obj (soulFields cfg)) = true := by
  simp [soulFields, isStandard, isStandardFields, isStandardItems_texts]

theorem isStandard_handoff (cfg : HandoffConfig) :
    isStandard (.obj (handoffFields cfg)) = true := by
  cases h : cfg.webhookUrl <;>
    simp [handoffFields, isStandard, isStandardFields, isStandardItems_texts, h]

theorem loads_modelDumpJson {fields : List (String × Json)}
    (h : (Json.obj fields).wellFormed = true) :
    loads (modelDumpJson fields) = some (.obj fields) :=
  loads_textOf (fun c hc => by cases hc) h

section Config

variable {α : Type} {fields : α → List (String × Json)}

theorem cast_configToJson (hwf : ∀ cfg, (Json.obj (fields cfg)).wellFormed = true)
    (hstandard : ∀ cfg, isStandard (.obj (fields cfg)) = true) (cfg : Option α) :
    Slot.jsonb.cast (configToJson fields cfg) = some (configCell fields cfg) := by
  cases cfg with
  | none => rfl
  | some cfg =>
    rw [configToJson, Slot.cast, toJsonb, loads_modelDumpJson (hwf cfg), Option.filter_some,
      if_pos (hstandard cfg)]
    rfl

theorem jsonToConfig_of_answers {validate : Json → Except Exc α}
    (hwf : ∀ cfg, (Json.obj (fields cfg)).wellFormed = true)
    (hvalidate : ∀ cfg v, comesBack (.obj (fields cfg)) v = true → validate v = .ok cfg)
    {cfg : Option α} {cell : Cell} (h : Fetched (configCell fields cfg) cell) :
    jsonToConfig validate cell = .ok cfg := by
  cases cfg with
  | none =>
    cases h
    rfl
  | some cfg =>
    have hvalue : ∀ v, comesBack (.obj (fields cfg)) v = true →
        jsonToConfig validate (.json v) = .ok (some cfg) := by
      intro v hv
      obtain ⟨entries, rfl, -⟩ := comesBack_obj hv
      rw [jsonToConfig, hvalidate cfg _ hv]
      · rfl
      · intro hnull
        cases hnull
    cases h with
    | same => exact hvalue _ (comesBack_refl _ (hwf cfg))
    | decoded h => exact hvalue _ h
    | jsonText hs h =>
      rw [jsonToConfig, hs]
      dsimp only
      rw [hvalidate cfg _ h]
      rfl

end Config

/-- A field that came back is read. -/
theorem modelField_eq {β : Type} {entries : List (String × Json)} {key : String} {v : Json}
    {read : Json → Except Exc β} {b default : β}
    (hfield : ∃ w, Json.field key entries = some w ∧ comesBack v w = true)
    (hread : ∀ w, comesBack v w = true → read w = .ok b) :
    modelField entries key read default = .ok b := by
  obtain ⟨w, hw, hback⟩ := hfield
  rw [modelField, hw]
  exact hread w hback

theorem readStr_eq {s : String} {v : Json} (h : comesBack (.str s) v = true) :
    readStr v = .ok s := by
  rw [comesBack_str h, readStr]

theorem readOptStr_eq {s : Option String} {v : Json}
    (h : comesBack (s.elim .null .str) v = true) : readOptStr v = .ok s := by
  cases s with
  | none => rw [comesBack_null h, readOptStr]
  | some s => rw [comesBack_str h, readOptStr]

theorem readStrs_eq {texts : List String} {v : Json}
    (h : comesBack (.arr (texts.map .str)) v = true) : readStrs v = .ok texts := by
  have hitems : ∀ texts : List String, readItems (texts.map .str) = .ok texts := by
    intro texts
    induction texts with
    | nil => rfl
    | cons s texts ih =>
      rw [List.map_cons, readItems, readStr, ok_bind, ih, ok_bind]
  rw [comesBack_texts h, readStrs, hitems]

theorem readBool_eq {b : Bool} {v : Json} (h : comesBack (.bool b) v = true) :
    readBool L v = .ok b := by
  rw [comesBack_bool h, readBool]

theorem readInt_eq {n : Int} {v : Json} (h : comesBack (.int n) v = true) :
    readInt L v = .ok n := by
  rw [comesBack_int h, readInt]

theorem validateSoul_eq (cfg : SoulConfig) (v : Json)
    (h : comesBack (.obj (soulFields cfg)) v = true) : validateSoul L v = .ok cfg := by
  obtain ⟨entries, rfl, -, hfields⟩ := comesBack_obj h
  simp only [soulFields, List.forall_mem_cons] at hfields
  obtain ⟨hlanguage, htone, hmission, hrules, hskills, -⟩ := hfields
  rw [validateSoul]
  dsimp only
  rw [modelField_eq hlanguage fun _ => readStr_eq, ok_bind, modelField_eq htone fun _ => readStr_eq,
    ok_bind, modelField_eq hmission fun _ => readStr_eq, ok_bind,
    modelField_eq hrules fun _ => readStrs_eq, ok_bind,
    modelField_eq hskills fun _ => readBool_eq L, ok_bind]

theorem validateHandoff_eq (cfg : HandoffConfig) (v : Json)
    (h : comesBack (.obj (handoffFields cfg)) v = true) : validateHandoff L v = .ok cfg := by
  obtain ⟨entries, rfl, -, hfields⟩ := comesBack_obj h
  simp only [handoffFields, List.forall_mem_cons] at hfields
  obtain ⟨henabled, hkeywords, hurl, hmessage, hhours, -⟩ := hfields
  rw [validateHandoff]
  dsimp only
  rw [modelField_eq henabled fun _ => readBool_eq L, ok_bind,
    modelField_eq hkeywords fun _ => readStrs_eq, ok_bind, modelField_eq hurl fun _ => readOptStr_eq,
    ok_bind, modelField_eq hmessage fun _ => readStr_eq, ok_bind,
    modelField_eq hhours fun _ => readInt_eq L, ok_bind]

/-! ## The codec -/

theorem cast_soulToJson (cfg : Option SoulConfig) :
    Slot.jsonb.cast (soulToJson cfg) = some (configCell soulFields cfg) :=
  cast_configToJson wellFormed_soul isStandard_soul cfg

theorem cast_handoffToJson (cfg : Option HandoffConfig) :
    Slot.jsonb.cast (handoffToJson cfg) = some (configCell handoffFields cfg) :=
  cast_configToJson wellFormed_handoff isStandard_handoff cfg

theorem holds_configCell {α : Type} (fields : α → List (String × Json)) (cfg : Option α) :
    ColumnType.jsonb.holds (configCell fields cfg) = true := by
  cases cfg <;> rfl

/-- The cells of a tenant. -/
def tenantCells (t : Tenant) : List Cell :=
  [.text t.id, .text t.name, .text t.slug, .text t.status.value, .ofText t.whatsappPhoneNumberId,
    .text t.model, configCell soulFields t.soulConfig, configCell handoffFields t.handoffConfig,
    .timestamp t.createdAt]

theorem rowToTenant_of_answers {t : Tenant} {row : List Cell}
    (h : List.Forall₂ Fetched (tenantCells t) row) : rowToTenant L row = .ok t := by
  have hat := answers_at h
  have hstatus := Fetched.asMember (hat 3) (TenantStatus.ofValue_value t.status)
  have hsoul : jsonToSoul L (cellAt row 6) = .ok t.soulConfig :=
    jsonToConfig_of_answers wellFormed_soul (validateSoul_eq L) (hat 6)
  have hhandoff : jsonToHandoff L (cellAt row 7) = .ok t.handoffConfig :=
    jsonToConfig_of_answers wellFormed_handoff (validateHandoff_eq L) (hat 7)
  rw [rowToTenant, Fetched.asTime (hat 8), ok_bind, Fetched.asText (hat 0), ok_bind,
    Fetched.asText (hat 1), ok_bind, Fetched.asText (hat 2), ok_bind, hstatus, ok_bind,
    Fetched.asOptText (hat 4), ok_bind, Fetched.asText (hat 5), ok_bind, hsoul, ok_bind, hhandoff,
    ok_bind]

/-- What a decoded row says about the column no UPDATE writes. -/
theorem rowToTenant_kept {row : List Cell} {t : Tenant} (h : rowToTenant L row = .ok t) :
    (cellAt row 8).asTime = .ok t.createdAt := by
  simp only [rowToTenant, bind_eq_ok] at h
  obtain ⟨_, hcreated, _, _, _, _, _, _, _, _, _, _, _, _, _, _, _, _, h⟩ := h
  cases h
  exact hcreated

/-- What the INSERT of a tenant sends. -/
theorem castAll_row (t : Tenant) :
    castAll (tenantAdapter L).slots ((tenantAdapter L).row t) = some (tenantCells t) := by
  simp only [tenantAdapter, castAll_plain]
  rw [castAll_jsonb (cast_soulToJson t.soulConfig),
    castAll_jsonb (cast_handoffToJson t.handoffConfig)]
  rfl

def tenantCodec : Codec (tenantAdapter L) (fun _ => True) (fun _ => True) Eq where
  cells := tenantCells
  nodup := by
    show tenantColumns.names.Nodup
    decide
  length _ := rfl
  typed t := by
    simp [tenantAdapter, tenantColumns, tenantCells, holds_configCell]
  insert t _ _ h := Option.some.inj (h.symm.trans (castAll_row L t))
  sent t _ _ := castAll_row L t
  decode t _ _ h := ⟨t, rowToTenant_of_answers L h, rfl⟩
  id _ := rfl
  id_mem := by
    show "id" ∈ tenantColumns.names
    decide

/-- What its UPDATE sends. -/
theorem castAll_params (t : Tenant) :
    castAll (tenantChange.sets.map Prod.snd) (tenantChange.params t) =
      some (((tenantCodec L).record t).read tenantChange.names) := by
  simp only [tenantChange, List.map_cons, List.map_nil, castAll_plain]
  rw [castAll_jsonb (cast_soulToJson t.soulConfig),
    castAll_jsonb (cast_handoffToJson t.handoffConfig)]
  rfl

theorem tenantCodec_covers :
    (tenantCodec L).Covers tenantChange fun stored t => t.createdAt = stored.createdAt where
  change t _ _ h := Option.some.inj (h.symm.trans (castAll_params L t))
  sent t _ _ := castAll_params L t
  kept driver row stored t htyped hdecoded hkeeps c hc hnot hid := by
    have hcolumn : ∀ c ∈ tenantColumns.names, c ∉ tenantChange.names →
        c ≠ "id" → c = "created_at" := by decide
    have hcreated := rowToTenant_kept L hdecoded
    obtain rfl := hcolumn c hc hnot hid
    rw [time_kept htyped (c := "created_at") (by simp [tenantAdapter, tenantColumns]) rfl hcreated,
      ← hkeeps]
    rfl

end Tenants

end Wapsell

import SceneWorks.Library.Fallible
import SceneWorks.Library.JsonRecord
import SceneWorks.Library.Text

/-!
The ordered reference contract of FLUX.3 Klein: the references of a payload, the sizes it
asks for, and the check of an authored box layout.
-/

namespace SceneWorks.ImageRequest.Flux3

open JsonObject (get)

def maxReferences : Nat := 10

def isModel (model : String) : Bool := model = "flux3_klein" || model = "flux3_klein_base"

structure ReferenceRequest where
  assetIds : List String
  width : Option UInt32
  height : Option UInt32
  layout : Option Json
  referenceIds : Option (List String)

def isBlank (text : String) : Bool := Text.trim text = ""

/-- A single reference that may be absent. -/
def scalarId (payload : JsonObject) (key : String) : Except String (Option String) :=
  match get payload key with
  | none | some .null => .ok none
  | some value =>
      match value.asStr.filter fun id => !(isBlank id) with
      | some id => .ok (some (Text.trim id))
      | none => .error ("FLUX.3 `" ++ key ++ "` must be a non-blank owned image asset id.")

def pluralIds (payload : JsonObject) : Except String (List String) :=
  match get payload "referenceAssetIds" with
  | none | some .null => .ok []
  | some (.arr values) =>
      match values.mapM fun value => value.asStr.filter fun id => !(isBlank id) with
      | some ids => .ok (ids.map Text.trim)
      | none => .error "FLUX.3 referenceAssetIds must contain only non-blank owned image asset ids."
  | some _ =>
      .error "FLUX.3 referenceAssetIds must be an ordered array of owned image asset ids."

def isPresent : Option Json → Bool
  | none | some .null => false
  | some _ => true

def referenceIds (payload : JsonObject) : Except String (List String) := do
  if isPresent (get payload "maskAssetId") then
    .error ("FLUX.3 reference editing has no mask tensor. Remove maskAssetId; include an " ++
      "annotated image as an ordinary reference instead.")
  else
    let source ← scalarId payload "sourceAssetId"
    let plural ← pluralIds payload
    let single ← scalarId payload "referenceAssetId"
    let ids := source.toList ++ plural ++ single.toList
    if maxReferences < ids.length then
      .error ("FLUX.3 accepts 1–" ++ toString maxReferences ++
        " ordered references, including duplicate slots; this request supplies " ++
        toString ids.length ++ ".")
    else .ok ids

def invalidLayout {α : Type} : Except String α :=
  .error ("FLUX.3 layout needs version 1 and labeled positive YXYX boxes; edits need an " ++
    "attached source and a target box or explicit null removal.")

def orInvalid {α : Type} : Option α → Except String α
  | some a => .ok a
  | none => invalidLayout

/-- Whether a box is given; one that is given must be positive. -/
def layoutBox : Option Json → Except String Bool
  | none | some .null => .ok false
  | some value =>
      match (value.asArray.bind fun items =>
          items.mapM fun item => item.asF64.filter F64.isFinite) with
      | some [top, left, bottom, right] =>
          if F64.le bottom top || F64.le right left then invalidLayout else .ok true
      | _ => invalidLayout

def layoutSpace (present : Bool) (allowed : List String) : Option Json → Except String Unit
  | none => .ok ()
  | some value =>
      if present && value.asStr.any allowed.contains then .ok () else invalidLayout

def outputSpaces : List String := ["normalized", "output", "output_canvas"]

def sourceSpaces : List String :=
  ["normalized", "original", "oriented", "fitted", "reference_canvas"]

def unitKeys : List String := ["units", "bbox_units", "src_units", "tgt_units"]

/-- The slot an origin names. -/
def refImageIndex (origin : String) : Option Nat :=
  if "ref_image_".toList.isPrefixOf origin.toList then
    (Text.parseDigits (origin.toList.drop "ref_image_".toList.length)).filter (· < 2 ^ 64)
  else none

/-- A row that moves something out of an attached reference, or draws it anew. -/
def validateEdit (count : Nat) (referenceIds : Option (List String)) (source target : Bool)
    (field : String → Option Json) : Except String Unit := do
  let origin ← orInvalid ((field "from").bind Json.asStr)
  if origin = "target" then
    if source || !target || (field "reference_id").isSome then invalidLayout else .ok ()
  else
    let index ← orInvalid (refImageIndex origin)
    if !source then invalidLayout
    else
      match field "reference_id" with
      | some identity =>
          let identity ← orInvalid (identity.asStr.filter (· ≠ ""))
          if !(referenceIds.any fun ids => ids.contains identity) then
            .error ("FLUX.3 layout selected reference identity is not attached; restore its " ++
              "attachment or remove the edit.")
      | none =>
          if count ≤ index then .error "FLUX.3 layout references a missing attachment slot."
      if (field "src_space").bind Json.asStr = some "original" then
        .error ("FLUX.3 product references use EXIF-oriented pixels; use oriented or normalized " ++
          "coordinates, not original-file pixels.")

def validateRow (count : Nat) (referenceIds : Option (List String))
    (field : String → Option Json) : Except String Unit := do
  match unitKeys.find? fun key => (field key).isSome with
  | some key =>
      .error ("FLUX.3 layout `" ++ key ++ "` is unsupported; use an explicit coordinate space.")
  | none =>
      let bbox ← layoutBox (field "bbox")
      let source ← layoutBox (field "src_bbox")
      let target ← layoutBox (field "tgt_bbox")
      layoutSpace bbox outputSpaces (field "bbox_space")
      layoutSpace source sourceSpaces (field "src_space")
      layoutSpace target outputSpaces (field "tgt_space")
      if bbox then
        if ["src_bbox", "tgt_bbox", "from", "reference_id"].any fun key => (field key).isSome then
          invalidLayout
        else .ok ()
      else validateEdit count referenceIds source target field

/-- The rows after those whose ids were seen. -/
def validateRows (count : Nat) (referenceIds : Option (List String)) :
    List String → List Json → Except String Unit
  | _, [] => .ok ()
  | seen, value :: rest => do
      let row ← orInvalid value.asObject
      let id ← orInvalid (((get row "id").bind Json.asStr).filter (· ≠ ""))
      if seen.contains id || (get row "desc").any fun desc => desc.asStr.isNone then invalidLayout
      else
        validateRow count referenceIds (get row)
        validateRows count referenceIds (id :: seen) rest

def validateLayout (layout : Json) (count : Nat) (referenceIds : Option (List String)) :
    Except String Unit := do
  let doc ← orInvalid layout.asObject
  if (get doc "version").bind Json.asU64 ≠ some 1 then invalidLayout
  else
    let boxes ← orInvalid ((get doc "boxes").bind Json.asArray)
    validateRows count referenceIds [] boxes

/-- The fields a row is checked by. -/
def rowKeys : List String :=
  ["bbox", "src_bbox", "tgt_bbox", "bbox_space", "src_space", "tgt_space", "from", "reference_id"]

theorem validateRow_congr {count : Nat} {referenceIds : Option (List String)}
    {f g : String → Option Json} (hrow : ∀ key ∈ rowKeys, f key = g key)
    (hunits : ∀ key ∈ unitKeys, f key = g key) :
    validateRow count referenceIds f = validateRow count referenceIds g := by
  have hfind : (unitKeys.find? fun key => (f key).isSome) =
      unitKeys.find? fun key => (g key).isSome := by
    simp only [unitKeys, List.find?_cons, List.find?_nil, hunits "units" (by decide),
      hunits "bbox_units" (by decide), hunits "src_units" (by decide),
      hunits "tgt_units" (by decide)]
  simp only [validateRow, validateEdit, hfind, List.any_cons, List.any_nil,
    hrow "bbox" (by decide), hrow "src_bbox" (by decide), hrow "tgt_bbox" (by decide),
    hrow "bbox_space" (by decide), hrow "src_space" (by decide), hrow "tgt_space" (by decide),
    hrow "from" (by decide), hrow "reference_id" (by decide)]
  rfl

/-- An accepted row names no units. -/
theorem units_of_validateRow {count : Nat} {referenceIds : Option (List String)}
    {field : String → Option Json} (h : validateRow count referenceIds field = .ok ()) :
    ∀ key ∈ unitKeys, field key = none := by
  rw [validateRow] at h
  cases hfind : unitKeys.find? fun key => (field key).isSome with
  | some key =>
      rw [hfind] at h
      cases h
  | none =>
      intro key hkey
      simpa using List.find?_eq_none.mp hfind key hkey

theorem orInvalid_eq_ok {α : Type} {value : Option α} {a : α} :
    orInvalid value = .ok a ↔ value = some a := by
  cases value with
  | none => exact ⟨nofun, nofun⟩
  | some b => simp [orInvalid]

theorem validateRows_cons {count : Nat} {referenceIds : Option (List String)} {seen : List String}
    {value : Json} {rest : List Json} :
    validateRows count referenceIds seen (value :: rest) = .ok () ↔
      ∃ row id, value.asObject = some row ∧
        ((get row "id").bind Json.asStr).filter (· ≠ "") = some id ∧
        ¬ (seen.contains id || (get row "desc").any fun desc => desc.asStr.isNone) = true ∧
        validateRow count referenceIds (get row) = .ok () ∧
        validateRows count referenceIds (id :: seen) rest = .ok () := by
  rw [validateRows, Fallible.bind_eq_ok]
  simp only [orInvalid_eq_ok, Fallible.bind_eq_ok]
  refine exists_congr fun row => ?_
  constructor
  · rintro ⟨hrow, id, hid, hrest⟩
    split at hrest
    · cases hrest
    · next hfresh =>
        obtain ⟨⟨⟩, hvalid, hrows⟩ := Fallible.bind_eq_ok.mp hrest
        exact ⟨id, hrow, hid, hfresh, hvalid, hrows⟩
  · rintro ⟨id, hrow, hid, hfresh, hvalid, hrows⟩
    refine ⟨hrow, id, hid, ?_⟩
    rw [if_neg hfresh]
    exact Fallible.bind_eq_ok.mpr ⟨(), hvalid, hrows⟩

theorem validateLayout_eq_ok {layout : Json} {count : Nat} {referenceIds : Option (List String)} :
    validateLayout layout count referenceIds = .ok () ↔
      ∃ doc boxes, layout.asObject = some doc ∧ (get doc "version").bind Json.asU64 = some 1 ∧
        (get doc "boxes").bind Json.asArray = some boxes ∧
        validateRows count referenceIds [] boxes = .ok () := by
  rw [validateLayout, Fallible.bind_eq_ok]
  simp only [orInvalid_eq_ok]
  refine exists_congr fun doc => ?_
  constructor
  · rintro ⟨hdoc, hrest⟩
    split at hrest
    · cases hrest
    · next hversion =>
        obtain ⟨boxes, hboxes, hrows⟩ := Fallible.bind_eq_ok.mp hrest
        exact ⟨boxes, hdoc, not_not.mp hversion, orInvalid_eq_ok.mp hboxes, hrows⟩
  · rintro ⟨boxes, hdoc, hversion, hboxes, hrows⟩
    refine ⟨hdoc, ?_⟩
    rw [if_neg (not_not.mpr hversion)]
    exact Fallible.bind_eq_ok.mpr ⟨boxes, orInvalid_eq_ok.mpr hboxes, hrows⟩

def strengthKeys : List String :=
  ["strength", "referenceStrength", "denoisingStrength", "imageStrength", "ip_adapter_scale",
    "ipAdapterScale"]

/-- An explicit side; the floor applies to the output. -/
def explicitSide (payload : JsonObject) (floor : Nat) (key : String) :
    Except String (Option UInt32) :=
  match get payload key with
  | none | some .null => .ok none
  | some value =>
      match value.asU32.filter fun side =>
          floor ≤ side.toNat && side.toNat ≤ 4096 && side.toNat % 16 = 0 with
      | some side => .ok (some side)
      | none =>
          .error ("FLUX.3 explicit " ++ key ++ " must be a multiple of 16 in " ++ toString floor ++
            "..=4096; omit it for reference-derived sizing.")

/-- The identities of the attachment slots. -/
def attachmentIds (count : Nat) : Option Json → Except String (Option (List String))
  | none | some .null => .ok none
  | some (.arr values) =>
      match values.mapM fun value => value.asStr.filter (· ≠ "") with
      | none => .error "FLUX.3 reference identities must be nonempty text."
      | some ids =>
          if ids.length ≠ count || ids.eraseDups.length ≠ ids.length then
            .error ("FLUX.3 reference identities must be unique and match every ordered " ++
              "attachment slot.")
          else .ok (some ids)
  | some _ => .error "FLUX.3 reference identities must be an ordered list."

def parse (payload : JsonObject) : Except String ReferenceRequest := do
  let assetIds ← referenceIds payload
  let mode := ((get payload "mode").bind Json.asStr).getD "text_to_image"
  let advanced := ((get payload "advanced").bind Json.asObject).getD []
  if !(["text_to_image", "image_generation", "edit_image", "character_image",
      "image_to_image"].contains mode) then
    .error ("FLUX.3 reference generation does not support mode `" ++ mode ++
      "`; use text_to_image or edit_image.")
  else if assetIds.isEmpty && ["edit_image", "character_image", "image_to_image"].contains mode then
    .error ("FLUX.3 editing requires 1–10 owned reference image assets. Add a reference or use " ++
      "text_to_image.")
  else
    match strengthKeys.find? fun key =>
        isPresent (get payload key) || isPresent (get advanced key) with
    | some key =>
        .error ("FLUX.3 references are conditioning, not img2img noise initialization; `" ++ key ++
          "` is unsupported, including 1.0. Remove this control.")
    | none =>
        let floor := if assetIds.isEmpty then 64 else 16
        let referenceIds ← attachmentIds assetIds.length (get advanced "flux3_reference_ids")
        let layout := (get advanced "flux3_layout").filter fun value => !value.isNull
        match layout with
        | some layout => validateLayout layout assetIds.length referenceIds
        | none => .ok ()
        let width ← explicitSide payload floor "width"
        let height ← explicitSide payload floor "height"
        .ok { assetIds, width, height, layout, referenceIds }

end SceneWorks.ImageRequest.Flux3

import SceneWorks.Library.JsonRecord

/-!
A property of every text of a JSON value, however deep. Each text is seen together with the
innermost field that holds it; the name of a field is a text that no field holds. What stands
in a field that is set aside is not looked at.
-/

namespace Json

variable (P : String → String → Prop) (aside : List String)

mutual

def EveryText (field : String) : Json → Prop
  | .str text => P field text
  | .arr items => EveryItem field items
  | .obj fields => EveryField fields
  | .null | .bool _ | .int _ | .float _ => True

def EveryItem (field : String) : List Json → Prop
  | [] => True
  | item :: rest => EveryText field item ∧ EveryItem field rest

def EveryField : List (String × Json) → Prop
  | [] => True
  | (name, value) :: rest =>
      (P "" name ∧ (name ∉ aside → EveryText name value)) ∧ EveryField rest

end

/-- One field of an object, with its name. -/
def FieldTexts (entry : String × Json) : Prop :=
  P "" entry.1 ∧ (entry.1 ∉ aside → EveryText P aside entry.1 entry.2)

variable {P aside} {field : String}

theorem everyText_arr {items : List Json} :
    EveryText P aside field (.arr items) ↔ ∀ item ∈ items, EveryText P aside field item := by
  rw [EveryText]
  induction items with
  | nil => simp [EveryItem]
  | cons item rest ih => rw [EveryItem, ih, List.forall_mem_cons]

theorem everyText_obj {fields : List (String × Json)} :
    EveryText P aside field (.obj fields) ↔ ∀ entry ∈ fields, FieldTexts P aside entry := by
  rw [EveryText]
  induction fields with
  | nil => simp [EveryField]
  | cons entry rest ih =>
      rw [EveryField, ih, List.forall_mem_cons]
      rfl

/-- A field that may be left out, but for its name. -/
def SlotTexts (P : String → String → Prop) (aside : List String) (slot : String × Option Json) :
    Prop :=
  ∀ value, slot.2 = some value → slot.1 ∉ aside → EveryText P aside slot.1 value

theorem everyText_record {slots : List (String × Option Json)}
    (hnames : ∀ name ∈ slots.map Prod.fst, P "" name) :
    EveryText P aside field (.obj (JsonObject.record slots)) ↔
      ∀ slot ∈ slots, SlotTexts P aside slot := by
  rw [everyText_obj, JsonObject.record]
  constructor
  · intro h slot hslot value hvalue
    exact (h (slot.1, value) (List.mem_filterMap.mpr ⟨slot, hslot, by rw [hvalue]; rfl⟩)).2
  · intro h entry hentry
    obtain ⟨slot, hslot, hsome⟩ := List.mem_filterMap.mp hentry
    obtain ⟨value, hvalue, rfl⟩ := Option.map_eq_some_iff.mp hsome
    exact ⟨hnames slot.1 (List.mem_map_of_mem hslot), h slot hslot value hvalue⟩

theorem everyText_select {names : List String} {f : String → Option Json}
    (hnames : ∀ name ∈ names, P "" name) :
    EveryText P aside field (.obj (JsonObject.select names f)) ↔
      ∀ name ∈ names, SlotTexts P aside (name, f name) := by
  have hmap : ((names.map fun name => (name, f name)).map Prod.fst) = names := by
    rw [List.map_map]
    exact List.map_id names
  rw [JsonObject.select, everyText_record (by rwa [hmap]), List.forall_mem_map]

theorem slotTexts_some {name : String} {value : Json} (h : EveryText P aside name value) :
    SlotTexts P aside (name, some value) := by
  intro found hfound _
  rw [← Option.some.inj hfound]
  exact h

theorem slotTexts_map {α : Type} {encode : α → Json} {name : String} {value : Option α}
    (h : ∀ a, value = some a → EveryText P aside name (encode a)) :
    SlotTexts P aside (name, value.map encode) := by
  intro found hfound _
  obtain ⟨a, ha, rfl⟩ := Option.map_eq_some_iff.mp hfound
  exact h a ha

theorem slotTexts_aside {name : String} (value : Option Json) (h : name ∈ aside) :
    SlotTexts P aside (name, value) := by
  intro found _ haside
  exact absurd h haside

section Mono

variable {Q : String → String → Prop}

mutual

/-- A weaker property of fewer texts. -/
theorem everyText_mono (h : ∀ field text, P field text → Q field text) {field : String} :
    ∀ {value : Json}, EveryText P [] field value → EveryText Q aside field value
  | .str text, hvalue => h field text hvalue
  | .arr _, hvalue => everyItem_mono h hvalue
  | .obj _, hvalue => everyField_mono h hvalue
  | .null, _ | .bool _, _ | .int _, _ | .float _, _ => trivial

theorem everyItem_mono (h : ∀ field text, P field text → Q field text) {field : String} :
    ∀ {items : List Json}, EveryItem P [] field items → EveryItem Q aside field items
  | [], _ => trivial
  | _ :: _, hitems => ⟨everyText_mono h hitems.1, everyItem_mono h hitems.2⟩

theorem everyField_mono (h : ∀ field text, P field text → Q field text) :
    ∀ {fields : List (String × Json)}, EveryField P [] fields → EveryField Q aside fields
  | [], _ => trivial
  | (_, _) :: _, hfields =>
      ⟨⟨h _ _ hfields.1.1, fun _ => everyText_mono h (hfields.1.2 List.not_mem_nil)⟩,
        everyField_mono h hfields.2⟩

end

end Mono

end Json

import Mathlib.Data.List.Find
import SceneWorks.SvgSanitize.AttributeReading

/-!
The attributes of an element in another order. What is charged and what is emitted do not depend on
it; whether a reference may take a name the style has declared does, and that is the one way in
which a name comes out twice.
-/

namespace SceneWorks.SvgSanitize

open Fallible Ledger

section Adds

/-- What an emitted attribute may be worth. -/
inductive CanonicalValue (name : String) (isRoot : Bool) (ids : SvgResourceIds) :
    String → String → Prop where
  | safe {key value : String} (h : unsafeAttributeValue value = false) :
      CanonicalValue name isRoot ids key value
  | svgNamespace (hroot : isRoot = true) (hname : name = "svg") :
      CanonicalValue name isRoot ids "xmlns" svgNamespace
  | reference {key target : String} {kind : SvgResourceKind}
      (hkind : (key, kind) ∈
        [("fill", .linearGradient), ("clip-path", .clipPath), ("filter", SvgResourceKind.filter)])
      (hids : ids target = some kind) :
      CanonicalValue name isRoot ids key ("url(#" ++ target ++ ")")

def AllowedName (name key : String) : Prop :=
  allowedAttribute name key = true ∨
    (key = "clip-path" ∨ key = "filter") ∧ referencingElements.contains name = true

/-- What each attribute that comes out is. -/
def Canonical (name : String) (isRoot : Bool) (ids : SvgResourceIds) (attr : String × String) :
    Prop :=
  AllowedName name attr.1 ∧ CanonicalValue name isRoot ids attr.1 attr.2

variable {name style : String} {isRoot : Bool} {ids : SvgResourceIds}

theorem localUrlTarget_eq {value target : String} (h : localUrlTarget value = some target) :
    value = "url(#" ++ target ++ ")" := by
  obtain ⟨hinside, -⟩ := Option.filter_eq_some_iff.mp h
  obtain ⟨inside, hbefore, rfl⟩ := Option.map_eq_some_iff.mp hinside
  obtain ⟨rest, hafter, hrest⟩ := Option.bind_eq_some_iff.mp hbefore
  rw [Text.after_eq_some_iff] at hafter
  rw [Text.before_eq_some_iff] at hrest
  have hinside : (String.ofList inside).toList = inside := String.toList_ofList
  apply String.toList_inj.mp
  rw [hafter, hrest, String.toList_append, String.toList_append, hinside, List.append_assoc]
  rfl

theorem allowedAttribute_of_presentation {key : String}
    (h : allowedPresentationProperty key = true) : allowedAttribute name key = true := by
  refine Bool.or_eq_true_iff.mpr (.inl (List.contains_iff_mem.mpr ?_))
  exact List.mem_append_left ["transform"] (List.contains_iff_mem.mp h)

theorem propertyReading_adds (isRoot : Bool) {key value : String} {r : AttributeReading}
    (h : propertyReading name ids key value = some r) :
    r.adds = [] ∨ r.adds = [(key, value)] ∧ allowedPresentationProperty key = true ∧
      CanonicalValue name isRoot ids key value := by
  unfold propertyReading at h
  split at h
  · exact .inl (by rw [← Option.some.inj h]; rfl)
  · split at h
    · obtain ⟨_, -, rfl⟩ := Option.map_eq_some_iff.mp h
      exact .inl rfl
    · right
      generalize hnamed : (if key = "fill" then localUrlTarget value else none) = named at h
      cases named with
      | some target =>
          obtain ⟨rfl, htarget⟩ := Option.ite_none_right_eq_some.mp hnamed
          dsimp only at h
          obtain ⟨hids, hr⟩ := Option.ite_none_right_eq_some.mp h
          refine ⟨by rw [← Option.some.inj hr], by decide, ?_⟩
          rw [localUrlTarget_eq htarget]
          exact .reference List.mem_cons_self hids
      | none =>
          dsimp only at h
          obtain ⟨hallowed, hr⟩ := Option.ite_none_left_eq_some.mp h
          obtain ⟨_, -, rfl⟩ := Option.map_eq_some_iff.mp hr
          simp only [Bool.or_eq_true, Bool.not_eq_true', not_or, Bool.not_eq_false,
            Bool.not_eq_true] at hallowed
          exact ⟨rfl, hallowed.1.1, .safe hallowed.2⟩

theorem declarationOf_key {seen : List String} {declaration key value : String}
    (h : declarationOf seen declaration = some (key, value)) : key ∉ seen := by
  unfold declarationOf at h
  cases hparts : Text.splitOnce ':' declaration with
  | none =>
      rw [hparts] at h
      cases h
  | some parts =>
      rw [hparts] at h
      obtain ⟨hnew, hpair⟩ := Option.ite_none_left_eq_some.mp h
      obtain ⟨rfl, -⟩ := Prod.mk.inj (Option.some.inj hpair)
      intro hseen
      exact hnew (Bool.or_eq_true_iff.mpr (.inr (List.contains_iff_mem.mpr hseen)))

theorem declarationsReading_adds (isRoot : Bool) {seen declarations : List String}
    {r : AttributeReading} (h : declarationsReading name style ids seen declarations = some r) :
    (r.adds.map Prod.fst).Nodup ∧ ∀ attr ∈ r.adds, attr.1 ∉ seen ∧
      allowedPresentationProperty attr.1 = true ∧ CanonicalValue name isRoot ids attr.1 attr.2 := by
  induction declarations generalizing seen r with
  | nil =>
      obtain rfl := Option.some.inj h
      exact ⟨.nil, nofun⟩
  | cons declaration rest ih =>
      rw [declarationsReading] at h
      split at h
      · obtain ⟨-, hr⟩ := Option.ite_none_right_eq_some.mp h
        obtain rfl := Option.some.inj hr
        exact ⟨.nil, nofun⟩
      · simp only [Option.bind_eq_bind, Option.bind_eq_some_iff] at h
        obtain ⟨⟨key, value⟩, hdeclared, first, hfirst, later, hlater, hr⟩ := h
        obtain rfl := Option.some.inj hr
        obtain ⟨hnodup, heach⟩ := ih hlater
        have hseen : key ∉ seen := declarationOf_key hdeclared
        rcases propertyReading_adds isRoot hfirst with hnone | ⟨hone, hallowed, hvalue⟩
        · rw [hnone]
          exact ⟨hnodup, fun attr hattr =>
            ⟨fun h => (heach attr hattr).1 (List.mem_append_left _ h), (heach attr hattr).2⟩⟩
        · rw [hone]
          refine ⟨List.nodup_cons.mpr ⟨?_, hnodup⟩, ?_⟩
          · intro hmem
            obtain ⟨attr, hattr, hkey⟩ := List.mem_map.mp hmem
            exact (heach attr hattr).1 (List.mem_append_right _ (List.mem_singleton.mpr hkey))
          · intro attr hattr
            rcases List.mem_cons.mp hattr with rfl | hattr
            · exact ⟨hseen, hallowed, hvalue⟩
            · exact ⟨fun h => (heach attr hattr).1 (List.mem_append_left _ h),
                (heach attr hattr).2⟩

theorem styleReading_adds (isRoot : Bool) {r : AttributeReading}
    (h : styleReading name style ids = some r) :
    (r.adds.map Prod.fst).Nodup ∧ ∀ attr ∈ r.adds,
      allowedPresentationProperty attr.1 = true ∧ CanonicalValue name isRoot ids attr.1 attr.2 := by
  obtain ⟨-, hr⟩ := Option.ite_none_left_eq_some.mp h
  obtain ⟨hnodup, heach⟩ := declarationsReading_adds isRoot hr
  exact ⟨hnodup, fun attr hattr => (heach attr hattr).2⟩

theorem not_mem_strippedAttributes {key : String} (hkey : key = "style" ∨ key = "fill") :
    (strippedAttributes name isRoot).contains key = false := by
  unfold strippedAttributes
  split
  · cases isRoot <;> rcases hkey with rfl | rfl <;> decide
  all_goals rcases hkey with rfl | rfl <;> decide

/-- A style and a fill are not among what an element may have and loses. -/
theorem strippedRetainedAttribute_kept {key value : String} (hkey : key = "style" ∨ key = "fill") :
    strippedRetainedAttribute name key value isRoot = .ok false := by
  have hothers : key ∉ ["xmlns:cc", "x", "y", "xml:space", "baseProfile", "enable-background",
      "sodipodi:docbase"] := by
    rcases hkey with rfl | rfl <;> decide
  have hnamespace : knownNamespace key = none := by
    rcases hkey with rfl | rfl <;> rfl
  simp only [List.mem_cons, not_or] at hothers
  obtain ⟨hcc, hx, hy, hspace, hprofile, hbackground, hdocbase, -⟩ := hothers
  simp only [strippedRetainedAttribute, hnamespace, if_neg hcc, hx, hy, hspace, hprofile,
    hbackground, hdocbase, decide_false, Bool.or_self, Bool.and_false, Bool.false_and,
    Bool.false_eq_true, if_false, strippedEditorAttribute, not_mem_strippedAttributes hkey]

theorem plainReading_canonical (ids : SvgResourceIds) {key value : String} {r : AttributeReading}
    (h : plainReading name isRoot key value = some r) :
    r.adds = [(key, value)] ∧ r.lenient = false ∧ Canonical name isRoot ids (key, value) := by
  obtain ⟨hallowed, hr⟩ := Option.ite_none_left_eq_some.mp h
  obtain ⟨_, -, rfl⟩ := Option.map_eq_some_iff.mp hr
  simp only [Bool.or_eq_true, Bool.and_eq_true, Bool.not_eq_true', not_or, not_and,
    Bool.not_eq_true, Bool.not_eq_false, decide_eq_true_eq] at hallowed
  obtain ⟨⟨hname, hnamespace⟩, hsafe⟩ := hallowed
  refine ⟨rfl, rfl, .inl hname, ?_⟩
  by_cases hoptions : (key = "xmlns" && isRoot && name = "svg" && value = svgNamespace) = true
  · simp only [Bool.and_eq_true, decide_eq_true_eq] at hoptions
    obtain ⟨⟨⟨rfl, hroot⟩, hsvg⟩, rfl⟩ := hoptions
    exact .svgNamespace hroot hsvg
  · exact .safe (hsafe (Bool.eq_false_iff.mpr hoptions))

theorem referenceKindOf_eq_some {key value : String} {kind : SvgResourceKind}
    (h : referenceKindOf key value = some kind) :
    (key, kind) ∈ [("fill", .linearGradient), ("clip-path", .clipPath),
      ("filter", SvgResourceKind.filter)] := by
  unfold referenceKindOf at h
  split at h
  · rename_i hfill
    obtain rfl := Option.some.inj h
    rw [of_decide_eq_true (Bool.and_eq_true_iff.mp hfill).1]
    decide
  · split at h
    · rename_i hclip
      obtain rfl := Option.some.inj h
      rw [hclip]
      decide
    · obtain ⟨hfilter, hkind⟩ := Option.ite_none_right_eq_some.mp h
      obtain rfl := Option.some.inj hkind
      rw [hfilter]
      decide

theorem resolveReference_eq_ok {key value : String} {kind : SvgResourceKind} {result : Unit}
    (h : resolveReference name ids key value kind = .ok result) :
    ((key = "clip-path" ∨ key = "filter") → referencingElements.contains name = true) ∧
      ∃ target, localUrlTarget value = some target ∧ ids target = some kind := by
  unfold resolveReference at h
  split at h
  · cases h
  · rename_i hreferencing
    refine ⟨fun hkey => ?_, ?_⟩
    · by_contra hname
      exact hreferencing (Bool.and_eq_true_iff.mpr ⟨by simpa using hkey, by simpa using hname⟩)
    · cases htarget : localUrlTarget value with
      | none =>
          rw [htarget] at h
          cases h
      | some target =>
          rw [htarget] at h
          dsimp only at h
          split at h
          · rename_i hids
            exact ⟨target, rfl, hids⟩
          · cases h

/-- What an attribute other than a style comes to: at most itself. -/
theorem reading_adds {attr : String × String} {r : AttributeReading}
    (h : reading name isRoot ids attr = some r) (hstyle : attr.1 ≠ "style") :
    (r.adds = [] ∧ r.lenient = false) ∨ r.adds = [attr] ∧ Canonical name isRoot ids attr ∧
      (r.lenient = (referenceKindOf attr.1 attr.2).isSome) := by
  obtain ⟨key, value⟩ := attr
  unfold reading at h
  dsimp only at h hstyle ⊢
  cases hstripped : strippedRetainedAttribute name key value isRoot with
  | error e =>
      rw [hstripped] at h
      cases h
  | ok stripped =>
      rw [hstripped] at h
      cases stripped with
      | true =>
          obtain rfl := Option.some.inj h
          exact .inl ⟨rfl, rfl⟩
      | false =>
          dsimp only at h
          rw [if_neg hstyle] at h
          right
          cases hkind : referenceKindOf key value with
          | none =>
              rw [hkind] at h
              obtain ⟨hadds, hlenient, hcanonical⟩ := plainReading_canonical ids h
              exact ⟨hadds, hcanonical, hlenient⟩
          | some kind =>
              rw [hkind] at h
              obtain ⟨_, hresolved, rfl⟩ := Option.map_eq_some_iff.mp h
              obtain ⟨hname, target, htarget, hids⟩ :=
                resolveReference_eq_ok (toOption_eq_some.mp hresolved)
              have hmem := referenceKindOf_eq_some hkind
              refine ⟨rfl, ⟨?_, ?_⟩, rfl⟩
              · simp only [List.mem_cons, Prod.mk.injEq, List.not_mem_nil, or_false] at hmem
                rcases hmem with ⟨rfl, -⟩ | ⟨rfl, -⟩ | ⟨rfl, -⟩
                · have hfill : allowedPresentationProperty "fill" = true := by decide
                  exact .inl (allowedAttribute_of_presentation hfill)
                · exact .inr ⟨.inl rfl, hname (.inl rfl)⟩
                · exact .inr ⟨.inr rfl, hname (.inr rfl)⟩
              · have hvalue : CanonicalValue name isRoot ids key ("url(#" ++ target ++ ")") :=
                  .reference hmem hids
                rwa [← localUrlTarget_eq htarget] at hvalue

end Adds

section Source

/-- The box a root is measured in, where there is one; a root whose box is malformed is refused. -/
def rootViewBox (isRoot : Bool) (attrs : Attributes) : Option (Option ViewBox) :=
  if isRoot then
    match attrs.find? fun attr => attr.1 = "viewBox" with
    | some attr => (parseViewboxValues attr.2).toOption.map some
    | none => some none
  else some none

def settled (isRoot : Bool) (box : Option ViewBox) (attr : String × String) :
    Option (String × String) :=
  if isRoot then (normalizeDimension box attr).toOption else some attr

/-- What is left of an attribute of the source. -/
def sourceReading (name : String) (isRoot : Bool) (ids : SvgResourceIds) (box : Option ViewBox)
    (attr : String × String) : Option AttributeReading :=
  (settled isRoot box attr).bind (reading name isRoot ids)

variable {name : String} {isRoot : Bool} {ids : SvgResourceIds} {box : Option ViewBox}

theorem normalizeDimension_name {attr attr' : String × String}
    (h : normalizeDimension box attr = .ok attr') :
    attr'.1 = attr.1 ∧ (attr.1 ≠ "width" ∧ attr.1 ≠ "height" → attr' = attr) := by
  obtain ⟨key, value⟩ := attr
  unfold normalizeDimension at h
  dsimp only at h
  split at h
  · obtain rfl := Except.ok.inj h
    exact ⟨rfl, fun _ => rfl⟩
  · rename_i hside
    have hnever : ¬ (key ≠ "width" ∧ key ≠ "height") := by simpa using hside
    refine ⟨?_, fun hother => absurd hother hnever⟩
    split at h
    · split at h
      · cases h
      · split at h
        · cases h
        · obtain rfl := Except.ok.inj h
          rfl
    · obtain ⟨pixels, -, hpixels⟩ := bind_eq_ok.mp h
      cases pixels <;> obtain rfl := Except.ok.inj hpixels <;> rfl

theorem settled_name {attr attr' : String × String} (h : settled isRoot box attr = some attr') :
    attr'.1 = attr.1 ∧ (attr.1 ≠ "width" ∧ attr.1 ≠ "height" → attr' = attr) := by
  unfold settled at h
  split at h
  · exact normalizeDimension_name (toOption_eq_some.mp h)
  · obtain rfl := Option.some.inj h
    exact ⟨rfl, fun _ => rfl⟩

/-- What an attribute other than a style comes to keeps its name, and is a reference's only if the
name is one that references have. -/
theorem sourceReading_adds {attr : String × String} {r : AttributeReading}
    (h : sourceReading name isRoot ids box attr = some r) (hstyle : attr.1 ≠ "style") :
    (r.adds = [] ∧ r.lenient = false) ∨ ∃ attr', settled isRoot box attr = some attr' ∧
      r.adds = [attr'] ∧ attr'.1 = attr.1 ∧ Canonical name isRoot ids attr' ∧
        r.lenient = (referenceKindOf attr'.1 attr'.2).isSome := by
  obtain ⟨attr', hsettled, hr⟩ := Option.bind_eq_some_iff.mp h
  have hname := (settled_name hsettled).1
  rcases reading_adds hr (by rwa [hname]) with hnone | ⟨hadds, hcanonical, hlenient⟩
  · exact .inl hnone
  · exact .inr ⟨attr', hsettled, hadds, hname, hcanonical, hlenient⟩

theorem sourceReading_style {value : String} :
    sourceReading name isRoot ids box ("style", value) = styleReading name value ids := by
  have hsettled : settled isRoot box ("style", value) = some ("style", value) := by
    cases isRoot <;> rfl
  rw [sourceReading, hsettled, Option.bind_some, reading]
  dsimp only
  rw [strippedRetainedAttribute_kept (.inl rfl)]
  rfl

/-- A fill by reference comes to itself, and does not ask. -/
theorem sourceReading_fill {value : String} {r : AttributeReading}
    (hurl : (localUrlTarget value).isSome = true)
    (h : sourceReading name isRoot ids box ("fill", value) = some r) :
    r.adds = [("fill", value)] ∧ r.lenient = true := by
  have hsettled : settled isRoot box ("fill", value) = some ("fill", value) := by
    cases isRoot <;> rfl
  rw [sourceReading, hsettled, Option.bind_some, reading] at h
  dsimp only at h
  have hkind : referenceKindOf "fill" value = some .linearGradient := by
    rw [referenceKindOf, hurl]
    rfl
  rw [strippedRetainedAttribute_kept (.inr rfl)] at h
  dsimp only at h
  rw [if_neg (by decide), hkind] at h
  obtain ⟨_, -, rfl⟩ := Option.map_eq_some_iff.mp h
  exact ⟨rfl, rfl⟩

/-- A step of the loop, with the side of a root measured as it is read. -/
def sourceStep (name : String) (isRoot : Bool) (ids : SvgResourceIds) (box : Option ViewBox)
    (state : ElementAttributes) (attr : String × String) : Option ElementAttributes :=
  (settled isRoot box attr).bind fun attr' =>
    (canonicalAttribute name isRoot ids state attr').toOption

theorem sourceStep_eq_some {state next : ElementAttributes} {attr : String × String} :
    sourceStep name isRoot ids box state attr = some next ↔
      ∃ r, sourceReading name isRoot ids box attr = some r ∧
        (r.lenient = true ∨ ∀ x ∈ state.1, ∀ y ∈ r.adds, ¬ SameName x y) ∧
        next.1 = state.1 ++ r.adds ∧ r.work.foldlM spend state.2 = some next.2 := by
  rw [sourceStep, sourceReading]
  cases settled isRoot box attr with
  | none => exact ⟨nofun, nofun⟩
  | some attr' => exact toOption_eq_some.trans canonicalAttribute_eq_ok

theorem settle_eq_ok {attrs settledAttrs : Attributes} :
    (if isRoot then normalizeRootDimensions attrs else .ok attrs) = .ok settledAttrs ↔
      ∃ box, rootViewBox isRoot attrs = some box ∧
        attrs.mapM (settled isRoot box) = some settledAttrs := by
  cases isRoot with
  | false =>
      have hkept : attrs.mapM (settled false none) = some attrs := by
        induction attrs with
        | nil => rfl
        | cons attr attrs ih =>
            rw [List.mapM_cons, ih]
            rfl
      constructor
      · intro h
        obtain rfl := Except.ok.inj h
        exact ⟨none, rfl, hkept⟩
      · rintro ⟨box, hbox, hmapped⟩
        obtain rfl := Option.some.inj hbox
        exact congrArg Except.ok (Option.some.inj (hkept.symm.trans hmapped))
  | true =>
      have hmapped : ∀ box, attrs.mapM (settled true box) = some settledAttrs ↔
          attrs.mapM (normalizeDimension box) = .ok settledAttrs := by
        intro box
        rw [← toOption_eq_some, toOption_mapM]
        rfl
      simp only [hmapped, rootViewBox, if_true]
      rw [normalizeRootDimensions]
      cases attrs.find? fun attr => attr.1 = "viewBox" with
      | none =>
          refine ⟨fun h => ⟨none, rfl, h⟩, ?_⟩
          rintro ⟨box, hbox, h⟩
          obtain rfl := Option.some.inj hbox
          exact h
      | some attr =>
          dsimp only
          cases parseViewboxValues attr.2 with
          | error e => exact ⟨nofun, nofun⟩
          | ok box =>
              refine ⟨fun h => ⟨some box, rfl, h⟩, ?_⟩
              rintro ⟨box', hbox, h⟩
              obtain rfl := Option.some.inj hbox
              exact h

theorem sourceLoop_eq_some {attrs : Attributes} {budget : SanitizerBudget}
    {next : ElementAttributes} :
    attrs.foldlM (sourceStep name isRoot ids box) ([], budget) = some next ↔
      Accepted spend (sourceReading name isRoot ids box) SameName budget next.2 attrs ∧
        next.1 = attrs.flatMap (adds (sourceReading name isRoot ids box)) := by
  have hstep : ∀ (state : ElementAttributes) attr next,
      sourceStep name isRoot ids box state attr = some next ↔ _ :=
    fun _ _ _ => sourceStep_eq_some
  refine (foldlM_eq_some hstep ([], budget) next).trans ?_
  exact ⟨fun ⟨haccepted, _, hnext⟩ => ⟨haccepted, hnext⟩,
    fun ⟨haccepted, hnext⟩ => ⟨haccepted, fun _ _ => .inr nofun, hnext⟩⟩

theorem foldlM_settled {attrs : Attributes} {state next : ElementAttributes} :
    (∃ settledAttrs, attrs.mapM (settled isRoot box) = some settledAttrs ∧
        settledAttrs.foldlM (canonicalAttribute name isRoot ids) state = .ok next) ↔
      attrs.foldlM (sourceStep name isRoot ids box) state = some next := by
  have hfused := mapM_bind_foldlM (f := settled isRoot box) (l := attrs) (c := state)
    (g := fun state attr => (canonicalAttribute name isRoot ids state attr).toOption)
  rw [show sourceStep name isRoot ids box = _ from rfl]
  refine Iff.trans ?_ (iff_of_eq (congrArg (· = some next) hfused))
  simp only [Option.bind_eq_some_iff, ← toOption_foldlM, toOption_eq_some]

theorem canonicalElement_eq {attrs : Attributes} {budget : SanitizerBudget}
    (hname : retainedElements.contains name = true) :
    canonicalElement name isRoot ids attrs budget =
      (if isRoot then normalizeRootDimensions attrs else .ok attrs) >>= fun settledAttrs =>
        settledAttrs.foldlM (canonicalAttribute name isRoot ids) ([], budget) >>= fun next =>
          if maxSvgAttributesPerElement < next.1.length then
            refuse ("element <" ++ name ++ "> exceeds the per-element attribute budget")
          else .ok ((name, next.1.insertionSort attributeLe), next.2) := by
  rw [canonicalElement, hname]
  cases isRoot <;> rfl

/-- The loop over a source's attributes, and the root's sides measured before it. -/
theorem canonicalElement_eq_ok {attrs : Attributes} {budget : SanitizerBudget}
    {result : (String × Attributes) × SanitizerBudget} :
    canonicalElement name isRoot ids attrs budget = .ok result ↔
      retainedElements.contains name = true ∧ ∃ box, rootViewBox isRoot attrs = some box ∧
        Accepted spend (sourceReading name isRoot ids box) SameName budget result.2 attrs ∧
        (attrs.flatMap (adds (sourceReading name isRoot ids box))).length ≤
          maxSvgAttributesPerElement ∧
        result.1 = (name, (attrs.flatMap
          (adds (sourceReading name isRoot ids box))).insertionSort attributeLe) := by
  cases hname : retainedElements.contains name with
  | false =>
      rw [canonicalElement, hname]
      exact ⟨nofun, fun h => nomatch h.1⟩
  | true =>
      rw [canonicalElement_eq hname, bind_eq_ok]
      simp only [settle_eq_ok, bind_eq_ok]
      constructor
      · rintro ⟨settledAttrs, ⟨box, hbox, hsettled⟩, next, hloop, hrest⟩
        split at hrest
        · cases hrest
        · rename_i hfew
          obtain ⟨haccepted, hadds⟩ :=
            sourceLoop_eq_some.mp (foldlM_settled.mp ⟨settledAttrs, hsettled, hloop⟩)
          obtain rfl := Except.ok.inj hrest
          rw [hadds] at hfew
          exact ⟨trivial, box, hbox, haccepted, Nat.le_of_not_lt hfew, by rw [hadds]⟩
      · rintro ⟨-, box, hbox, haccepted, hfew, hresult⟩
        have hlast : attrs.foldlM (sourceStep name isRoot ids box) ([], budget) =
            some (attrs.flatMap (adds (sourceReading name isRoot ids box)), result.2) :=
          sourceLoop_eq_some.mpr ⟨haccepted, rfl⟩
        obtain ⟨settledAttrs, hsettled, hloop⟩ := foldlM_settled.mpr hlast
        refine ⟨settledAttrs, ⟨box, hbox, hsettled⟩, _, hloop, ?_⟩
        rw [if_neg (Nat.not_lt.mpr hfew)]
        exact congrArg Except.ok (Prod.ext hresult.symm rfl)

end Source

section Order

/-- What of being accepted does not depend on the order of the attributes. -/
def Acceptable (name : String) (isRoot : Bool) (ids : SvgResourceIds) (budget : SanitizerBudget)
    (attrs : Attributes) : Prop :=
  retainedElements.contains name = true ∧ ∃ box budget', rootViewBox isRoot attrs = some box ∧
    Ledger.Acceptable spend (sourceReading name isRoot ids box) SameName budget budget' attrs ∧
    (attrs.flatMap (adds (sourceReading name isRoot ids box))).length ≤ maxSvgAttributesPerElement

/-- The style declares a fill and the fill attribute is a reference. -/
def FillTwice (name : String) (ids : SvgResourceIds) (attrs : Attributes) : Prop :=
  (∃ style r, ("style", style) ∈ attrs ∧ styleReading name style ids = some r ∧
    "fill" ∈ r.adds.map Prod.fst) ∧
  ∃ fill, ("fill", fill) ∈ attrs ∧ (localUrlTarget fill).isSome = true

def StyleFirst (attrs : Attributes) : Prop := ["style", "fill"].Sublist (attrs.map Prod.fst)

/-- What an accepted list of attributes is. -/
structure CanonicalAttributes (name : String) (isRoot : Bool) (ids : SvgResourceIds)
    (attrs : Attributes) : Prop where
  sorted : attrs.Pairwise fun a b => a.1 < b.1
  canonical : ∀ attr ∈ attrs, Canonical name isRoot ids attr

variable {name : String} {isRoot : Bool} {ids : SvgResourceIds} {box : Option ViewBox}
  {budget : SanitizerBudget} {attrs others : Attributes}

theorem rootViewBox_perm (hnames : (attrs.map Prod.fst).Nodup) (hperm : attrs.Perm others) :
    rootViewBox isRoot attrs = rootViewBox isRoot others := by
  have hfound : attrs.find? (fun attr => attr.1 = "viewBox") =
      others.find? fun attr => attr.1 = "viewBox" := by
    refine List.find?_eq_find?_of_perm hperm ?_
    rintro a ⟨ha, hbox⟩ c ⟨hc, hbox'⟩
    exact List.inj_on_of_nodup_map hnames ha hc
      ((of_decide_eq_true hbox).trans (of_decide_eq_true hbox').symm)
  rw [rootViewBox, rootViewBox, hfound]

theorem Acceptable.perm (hnames : (attrs.map Prod.fst).Nodup) (hperm : attrs.Perm others)
    (h : Acceptable name isRoot ids budget attrs) :
    Acceptable name isRoot ids budget others := by
  obtain ⟨hname, box, budget', hbox, hacceptable, hfew⟩ := h
  refine ⟨hname, box, budget', ?_, ?_, ?_⟩
  · rw [← rootViewBox_perm hnames hperm, hbox]
  · exact hacceptable.perm commutes_spend (fun _ _ => Eq.symm) hperm
  · rwa [← (hperm.flatMap_right _).length_eq]

theorem FillTwice.perm (hperm : attrs.Perm others) (h : FillTwice name ids attrs) :
    FillTwice name ids others := by
  obtain ⟨⟨style, r, hstyle, hr⟩, fill, hfill, hurl⟩ := h
  exact ⟨⟨style, r, hperm.mem_iff.mp hstyle, hr⟩, fill, hperm.mem_iff.mp hfill, hurl⟩

theorem lenient_eq {attr : String × String} {r : AttributeReading}
    (h : sourceReading name isRoot ids box attr = some r) :
    lenient (sourceReading name isRoot ids box) attr = r.lenient := by
  rw [lenient, h]
  rfl

theorem adds_eq {attr : String × String} {r : AttributeReading}
    (h : sourceReading name isRoot ids box attr = some r) :
    adds (sourceReading name isRoot ids box) attr = r.adds := by
  rw [adds, h]
  rfl

theorem apart_symm {a c : String × String}
    (h : Apart (sourceReading name isRoot ids box) SameName a c) :
    Apart (sourceReading name isRoot ids box) SameName c a :=
  fun x hx y hy hsame => h y hy x hx hsame.symm

/-- Two attributes of different names share a name when one is a style that declares a fill. -/
theorem names_of_clash {a c : String × String} (hne : a.1 ≠ c.1)
    (ha : (sourceReading name isRoot ids box a).isSome = true)
    (hc : (sourceReading name isRoot ids box c).isSome = true)
    (hlenient : lenient (sourceReading name isRoot ids box) a = true)
    (hclash : ¬ Apart (sourceReading name isRoot ids box) SameName a c) :
    (a.1 = "fill" ∧ (localUrlTarget a.2).isSome = true) ∧ c.1 = "style" ∧
      ∃ r, styleReading name c.2 ids = some r ∧ "fill" ∈ r.adds.map Prod.fst := by
  obtain ⟨ra, hra⟩ := Option.isSome_iff_exists.mp ha
  obtain ⟨rc, hrc⟩ := Option.isSome_iff_exists.mp hc
  rw [lenient_eq hra] at hlenient
  simp only [Apart, adds_eq hra, adds_eq hrc, not_forall, not_not] at hclash
  obtain ⟨x, hx, y, hy, hsame⟩ := hclash
  have hstyle : a.1 ≠ "style" := by
    intro hstyle
    have ha' : a = ("style", a.2) := Prod.ext hstyle rfl
    rw [ha', sourceReading_style] at hra
    rw [styleReading_lenient name ids hra] at hlenient
    cases hlenient
  rcases sourceReading_adds hra hstyle with ⟨-, hasks⟩ | ⟨a', hsettled, hadds, hname, -, hkind⟩
  · rw [hasks] at hlenient
    cases hlenient
  rw [hadds] at hx
  obtain rfl := List.mem_singleton.mp hx
  have hc' : c.1 = "style" := by
    by_contra hstyle'
    rcases sourceReading_adds hrc hstyle' with ⟨hnone, -⟩ | ⟨c', -, hadds', hname', -⟩
    · rw [hnone] at hy
      cases hy
    · rw [hadds'] at hy
      obtain rfl := List.mem_singleton.mp hy
      exact hne (hname.symm.trans (hsame.trans hname'))
  have hread : styleReading name c.2 ids = some rc := by
    have hstyled : sourceReading name isRoot ids box ("style", c.2) = _ := sourceReading_style
    rw [← hrc, ← hstyled, ← hc']
  have hallowed := ((styleReading_adds isRoot hread).2 y hy).1
  rw [hlenient] at hkind
  obtain ⟨kind, hreference⟩ := Option.isSome_iff_exists.mp hkind.symm
  have hmem := referenceKindOf_eq_some hreference
  rw [← show x.1 = y.1 from hsame] at hallowed
  have hfill : x.1 = "fill" := by
    simp only [List.mem_cons, Prod.mk.injEq, List.not_mem_nil, or_false] at hmem
    rcases hmem with ⟨hfill, -⟩ | ⟨hclip, -⟩ | ⟨hfilter, -⟩
    · exact hfill
    · rw [hclip] at hallowed
      exact absurd hallowed (by decide)
    · rw [hfilter] at hallowed
      exact absurd hallowed (by decide)
  have hkept : x = a := (settled_name hsettled).2 (by rw [← hname, hfill]; decide)
  refine ⟨⟨by rw [← hname, hfill], ?_⟩, hc', rc, hread, ?_⟩
  · rw [← hkept]
    by_contra hnot
    rw [referenceKindOf, Bool.eq_false_iff.mpr hnot, hfill] at hreference
    cases hreference
  · exact List.mem_map.mpr ⟨y, hy, by rw [← hfill]; exact hsame.symm⟩

theorem clash_of_fillTwice {style fill : String} {r : AttributeReading}
    (hreads : ∀ attr ∈ attrs, (sourceReading name isRoot ids box attr).isSome = true)
    (hread : styleReading name style ids = some r) (hdeclares : "fill" ∈ r.adds.map Prod.fst)
    (hfill : ("fill", fill) ∈ attrs) (hurl : (localUrlTarget fill).isSome = true) :
    lenient (sourceReading name isRoot ids box) ("fill", fill) = true ∧
      lenient (sourceReading name isRoot ids box) ("style", style) = false ∧
        ¬ Apart (sourceReading name isRoot ids box) SameName ("fill", fill) ("style", style) := by
  obtain ⟨rf, hrf⟩ := Option.isSome_iff_exists.mp (hreads _ hfill)
  have hstyle : sourceReading name isRoot ids box ("style", style) = some r := by
    rw [sourceReading_style, hread]
  obtain ⟨hadds, hlenient⟩ := sourceReading_fill hurl hrf
  obtain ⟨y, hy, hname⟩ := List.mem_map.mp hdeclares
  refine ⟨by rw [lenient_eq hrf, hlenient], ?_, fun hapart => ?_⟩
  · rw [lenient_eq hstyle, styleReading_lenient name ids hread]
  · refine hapart ("fill", fill) ?_ y (by rwa [adds_eq hstyle]) hname.symm
    rw [adds_eq hrf, hadds]
    exact List.mem_cons_self

/-- What is refused for its order is a reference that stands before the style that declares it. -/
theorem accepts_iff (hnames : (attrs.map Prod.fst).Nodup) :
    (∃ result, canonicalElement name isRoot ids attrs budget = .ok result) ↔
      Acceptable name isRoot ids budget attrs ∧ (FillTwice name ids attrs → StyleFirst attrs) := by
  constructor
  · rintro ⟨result, hresult⟩
    obtain ⟨hname, box, hbox, haccepted, hfew, -⟩ := canonicalElement_eq_ok.mp hresult
    obtain ⟨hacceptable, hafter⟩ := accepted_iff.mp haccepted
    refine ⟨⟨hname, box, result.2, hbox, hacceptable, hfew⟩, ?_⟩
    rintro ⟨⟨style, r, hstyle, hread, hdeclares⟩, fill, hfill, hurl⟩
    have hne : ("style", style) ≠ ("fill", fill) := fun h => absurd (Prod.mk.inj h).1 (by decide)
    rcases one_order hstyle hfill hne with hfirst | hlast
    · exact hfirst.map Prod.fst
    · exact absurd (clash_of_fillTwice hacceptable.reads hread hdeclares hfill hurl)
        (List.pairwise_iff_forall_sublist.mp hafter hlast)
  · rintro ⟨⟨hname, box, budget', hbox, hacceptable, hfew⟩, hfirst⟩
    refine ⟨((name, _), budget'), canonicalElement_eq_ok.mpr ⟨hname, box, hbox,
      accepted_iff.mpr ⟨hacceptable, ?_⟩, hfew, rfl⟩⟩
    refine List.pairwise_iff_forall_sublist.mpr fun {a c} horder => ?_
    rintro ⟨hlenient, -, hclash⟩
    have ha : a ∈ attrs := horder.subset List.mem_cons_self
    have hc : c ∈ attrs := horder.subset (List.mem_cons_of_mem _ List.mem_cons_self)
    have hordered : [a.1, c.1].Sublist (attrs.map Prod.fst) := horder.map Prod.fst
    have hne : a.1 ≠ c.1 := by
      have hpair := hnames.sublist hordered
      exact fun h => (List.nodup_cons.mp hpair).1 (List.mem_singleton.mpr h)
    obtain ⟨⟨hfill, hurl⟩, hstyle, r, hread, hdeclares⟩ :=
      names_of_clash hne (hacceptable.reads a ha) (hacceptable.reads c hc) hlenient hclash
    rw [hfill, hstyle] at hordered
    have ha' : ("fill", a.2) ∈ attrs := hfill ▸ ha
    have hc' : ("style", c.2) ∈ attrs := hstyle ▸ hc
    exact not_both_orders hnames hordered (hfirst ⟨⟨c.2, r, hc', hread, hdeclares⟩, a.2, ha', hurl⟩)

instance : Std.Antisymm attributeLe where
  antisymm a b hab hba := by
    rcases hab with hlt | ⟨hname, hvalue⟩
    · rcases hba with hgt | ⟨hname, -⟩
      · exact absurd hgt (lt_asymm hlt)
      · exact absurd hname.symm (ne_of_lt hlt)
    · rcases hba with hgt | ⟨-, hvalue'⟩
      · exact absurd hname.symm (ne_of_lt hgt)
      · exact Prod.ext hname (le_antisymm hvalue hvalue')

instance : Std.Total attributeLe where
  total a b := by
    rcases lt_trichotomy a.1 b.1 with hlt | hname | hgt
    · exact .inl (.inl hlt)
    · exact (le_total a.2 b.2).imp (fun h => .inr ⟨hname, h⟩) fun h => .inr ⟨hname.symm, h⟩
    · exact .inr (.inl hgt)

instance : IsTrans (String × String) attributeLe where
  trans a b c hab hbc := by
    rcases hab with hlt | ⟨hname, hvalue⟩
    · rcases hbc with hlt' | ⟨hname, -⟩
      · exact .inl (lt_trans hlt hlt')
      · exact .inl (hname ▸ hlt)
    · rcases hbc with hlt' | ⟨hname', hvalue'⟩
      · exact .inl (hname.symm ▸ hlt')
      · exact .inr ⟨hname.trans hname', le_trans hvalue hvalue'⟩

/-- Where both orders are accepted, the same comes out. -/
theorem canonicalElement_eq_of_perm {result result' : (String × Attributes) × SanitizerBudget}
    (hnames : (attrs.map Prod.fst).Nodup) (hperm : attrs.Perm others)
    (h : canonicalElement name isRoot ids attrs budget = .ok result)
    (h' : canonicalElement name isRoot ids others budget = .ok result') : result = result' := by
  obtain ⟨-, box, hbox, haccepted, -, hresult⟩ := canonicalElement_eq_ok.mp h
  obtain ⟨-, box', hbox', haccepted', -, hresult'⟩ := canonicalElement_eq_ok.mp h'
  rw [← rootViewBox_perm hnames hperm, hbox] at hbox'
  obtain rfl := Option.some.inj hbox'
  have hspent := haccepted.spent
  rw [foldlM_perm commutes_spend (hperm.flatMap_right _), haccepted'.spent] at hspent
  have hsorted := List.Perm.eq_of_pairwise'
    (List.pairwise_insertionSort attributeLe _) (List.pairwise_insertionSort attributeLe _)
    (((List.perm_insertionSort attributeLe _).trans
      (hperm.flatMap_right (adds (sourceReading name isRoot ids box)))).trans
        (List.perm_insertionSort attributeLe _).symm)
  refine Prod.ext ?_ (Option.some.inj hspent).symm
  rw [hresult, hresult', hsorted]

theorem canonical_of_mem_adds {attr : String × String} {y : String × String}
    (hy : y ∈ adds (sourceReading name isRoot ids box) attr) : Canonical name isRoot ids y := by
  cases hread : sourceReading name isRoot ids box attr with
  | none =>
      rw [adds, hread] at hy
      cases hy
  | some r =>
      rw [adds_eq hread] at hy
      by_cases hstyle : attr.1 = "style"
      · have hattr : attr = ("style", attr.2) := Prod.ext hstyle rfl
        rw [hattr, sourceReading_style] at hread
        obtain ⟨hallowed, hvalue⟩ := (styleReading_adds isRoot hread).2 y hy
        exact ⟨.inl (allowedAttribute_of_presentation hallowed), hvalue⟩
      · rcases sourceReading_adds hread hstyle with ⟨hnone, -⟩ | ⟨attr', -, hadds, -, hcanonical, -⟩
        · rw [hnone] at hy
          cases hy
        · rw [hadds] at hy
          obtain rfl := List.mem_singleton.mp hy
          exact hcanonical

theorem nodup_adds {attr : String × String} :
    ((adds (sourceReading name isRoot ids box) attr).map Prod.fst).Nodup := by
  cases hread : sourceReading name isRoot ids box attr with
  | none =>
      rw [adds, hread]
      exact .nil
  | some r =>
      rw [adds_eq hread]
      by_cases hstyle : attr.1 = "style"
      · have hattr : attr = ("style", attr.2) := Prod.ext hstyle rfl
        rw [hattr, sourceReading_style] at hread
        exact (styleReading_adds isRoot hread).1
      · rcases sourceReading_adds hread hstyle with ⟨hnone, -⟩ | ⟨attr', -, hadds, -⟩
        · rw [hnone]
          exact .nil
        · rw [hadds]
          exact List.nodup_singleton _

/-- Names come out once where no two attributes clash, and only there. -/
theorem nodup_flatMap_adds :
    ((attrs.flatMap (adds (sourceReading name isRoot ids box))).map Prod.fst).Nodup ↔
      attrs.Pairwise fun a c => Apart (sourceReading name isRoot ids box) SameName a c := by
  rw [List.map_flatMap, List.nodup_flatMap]
  refine (and_iff_right fun attr _ => nodup_adds).trans ?_
  refine iff_of_eq (congrArg (attrs.Pairwise ·) ?_)
  funext a c
  refine propext ⟨fun h x hx y hy hsame => ?_, fun h key hx hy => ?_⟩
  · have hname : x.1 = y.1 := hsame
    have hy' : y.1 ∈ (adds (sourceReading name isRoot ids box) c).map Prod.fst :=
      List.mem_map_of_mem hy
    exact h (List.mem_map_of_mem hx) (hname ▸ hy')
  · obtain ⟨x, hmem, rfl⟩ := List.mem_map.mp hx
    obtain ⟨y, hmem', hsame⟩ := List.mem_map.mp hy
    exact h x hmem y hmem' hsame.symm

theorem strictly_sorted_iff {l : Attributes} :
    ((l.insertionSort attributeLe).Pairwise fun a b => a.1 < b.1) ↔ (l.map Prod.fst).Nodup := by
  have hperm := List.perm_insertionSort attributeLe l
  rw [← (hperm.map Prod.fst).nodup_iff, List.Nodup, List.pairwise_map]
  constructor
  · exact fun h => h.imp fun hlt => ne_of_lt hlt
  · intro h
    refine ((List.pairwise_insertionSort attributeLe l).and h).imp ?_
    rintro a b ⟨hlt | ⟨hname, -⟩, hne⟩
    · exact hlt
    · exact absurd hname hne

/-- What is accepted is canonical but for the fill that comes out twice. -/
theorem canonicalAttributes_iff {result : (String × Attributes) × SanitizerBudget}
    (hnames : (attrs.map Prod.fst).Nodup)
    (h : canonicalElement name isRoot ids attrs budget = .ok result) :
    CanonicalAttributes name isRoot ids result.1.2 ↔ ¬ FillTwice name ids attrs := by
  obtain ⟨-, box, -, haccepted, -, hresult⟩ := canonicalElement_eq_ok.mp h
  rw [hresult]
  dsimp only
  have hsorted : _ ↔ attrs.Pairwise fun a c =>
      Apart (sourceReading name isRoot ids box) SameName a c :=
    strictly_sorted_iff.trans nodup_flatMap_adds
  constructor
  · rintro ⟨hstrict, -⟩ ⟨⟨style, r, hstyle, hread, hdeclares⟩, fill, hfill, hurl⟩
    have hclash := (clash_of_fillTwice haccepted.reads hread hdeclares hfill hurl).2.2
    have happart : ∀ a c : String × String, [a, c].Sublist attrs →
        Apart (sourceReading name isRoot ids box) SameName a c :=
      fun _ _ => List.pairwise_iff_forall_sublist.mp (hsorted.mp hstrict)
    have hne : ("style", style) ≠ ("fill", fill) := fun h => absurd (Prod.mk.inj h).1 (by decide)
    rcases one_order hstyle hfill hne with hfirst | hlast
    · exact hclash (apart_symm (happart _ _ hfirst))
    · exact hclash (happart _ _ hlast)
  · intro hnot
    refine ⟨hsorted.mpr (List.pairwise_iff_forall_sublist.mpr fun {a c} horder => ?_), ?_⟩
    · by_contra hclash
      have ha : a ∈ attrs := horder.subset List.mem_cons_self
      have hc : c ∈ attrs := horder.subset (List.mem_cons_of_mem _ List.mem_cons_self)
      have hne : c.1 ≠ a.1 := by
        have hpair : [a.1, c.1].Nodup := hnames.sublist (horder.map Prod.fst)
        exact fun h => (List.nodup_cons.mp hpair).1 (List.mem_singleton.mpr h.symm)
      have hlenient := (List.pairwise_iff_forall_sublist.mp haccepted.apart horder).resolve_right
        hclash
      obtain ⟨⟨hfill, hurl⟩, hstyle, r, hread, hdeclares⟩ := names_of_clash hne
        (haccepted.reads c hc) (haccepted.reads a ha) hlenient
          fun happart => hclash (apart_symm happart)
      have hc' : ("fill", c.2) ∈ attrs := hfill ▸ hc
      have ha' : ("style", a.2) ∈ attrs := hstyle ▸ ha
      exact hnot ⟨⟨a.2, r, ha', hread, hdeclares⟩, c.2, hc', hurl⟩
    · intro y hy
      obtain ⟨attr, -, hy⟩ := List.mem_flatMap.mp
        ((List.perm_insertionSort attributeLe _).mem_iff.mp hy)
      exact canonical_of_mem_adds hy

/-- An element's attributes come out the same in every order, and each name once, unless the style
declares a fill and comes before a fill by reference in one of the two orders. -/
theorem canonicalElement_order_iff (name : String) (isRoot : Bool) (ids : SvgResourceIds)
    (budget : SanitizerBudget) (attrs others : Attributes) (hnames : (attrs.map Prod.fst).Nodup)
    (hperm : attrs.Perm others) :
    ((canonicalElement name isRoot ids attrs budget).toOption =
        (canonicalElement name isRoot ids others budget).toOption ∧
      ∀ result, canonicalElement name isRoot ids attrs budget = .ok result →
        CanonicalAttributes name isRoot ids result.1.2) ↔
    ¬ (Acceptable name isRoot ids budget attrs ∧ FillTwice name ids attrs ∧
      (StyleFirst attrs ∨ StyleFirst others)) := by
  have hnames' : (others.map Prod.fst).Nodup := (hperm.map Prod.fst).nodup_iff.mp hnames
  have haccepts : (∃ result, canonicalElement name isRoot ids attrs budget = .ok result) ↔ _ :=
    accepts_iff hnames
  have haccepts' : (∃ result, canonicalElement name isRoot ids others budget = .ok result) ↔ _ :=
    accepts_iff hnames'
  constructor
  · rintro ⟨hsame, hcanonical⟩ ⟨hacceptable, htwice, hfirst⟩
    have hok : ∃ result, canonicalElement name isRoot ids attrs budget = .ok result := by
      rcases hfirst with hfirst | hfirst
      · exact haccepts.mpr ⟨hacceptable, fun _ => hfirst⟩
      · obtain ⟨result, hresult⟩ :=
          haccepts'.mpr ⟨hacceptable.perm hnames hperm, fun _ => hfirst⟩
        rw [hresult] at hsame
        exact ⟨result, toOption_eq_some.mp hsame⟩
    obtain ⟨result, hresult⟩ := hok
    exact (canonicalAttributes_iff hnames hresult).mp (hcanonical result hresult) htwice
  · intro hnot
    have hlone : ∀ result, canonicalElement name isRoot ids attrs budget = .ok result →
        ¬ FillTwice name ids attrs := by
      intro result hresult htwice
      obtain ⟨hacceptable, hfirst⟩ := haccepts.mp ⟨result, hresult⟩
      exact hnot ⟨hacceptable, htwice, .inl (hfirst htwice)⟩
    refine ⟨?_, fun result hresult =>
      (canonicalAttributes_iff hnames hresult).mpr (hlone result hresult)⟩
    cases hattrs : canonicalElement name isRoot ids attrs budget with
    | ok result =>
        obtain ⟨hacceptable, -⟩ := haccepts.mp ⟨result, hattrs⟩
        obtain ⟨result', hothers⟩ := haccepts'.mpr ⟨hacceptable.perm hnames hperm,
          fun htwice => absurd (htwice.perm hperm.symm) (hlone result hattrs)⟩
        rw [hothers, canonicalElement_eq_of_perm hnames hperm hattrs hothers]
    | error e =>
        cases hothers : canonicalElement name isRoot ids others budget with
        | error e' => rfl
        | ok result' =>
            obtain ⟨hacceptable, hfirst⟩ := haccepts'.mp ⟨result', hothers⟩
            have hacceptable' := hacceptable.perm hnames' hperm.symm
            obtain ⟨result, hresult⟩ := haccepts.mpr ⟨hacceptable', fun htwice =>
              absurd ⟨hacceptable', htwice, .inr (hfirst (htwice.perm hperm))⟩ hnot⟩
            rw [hattrs] at hresult
            cases hresult

def styledFill : Attributes := [("style", "fill:red"), ("fill", "url(#a)")]

def strokedFill : Attributes := [("stroke", "red"), ("fill", "url(#a)")]

def unusedBudget : SanitizerBudget := ⟨0, 0, 0, 0, 0, 0, 0, 0⟩

def oneGradient : SvgResourceIds := fun id => if id = "a" then some .linearGradient else none

/-- Without a style the order of fill and stroke is free. -/
theorem canonicalElement_order_free :
    (canonicalElement "path" false oneGradient strokedFill unusedBudget).toOption =
        (canonicalElement "path" false oneGradient strokedFill.reverse unusedBudget).toOption ∧
      ∀ result, canonicalElement "path" false oneGradient strokedFill unusedBudget = .ok result →
        CanonicalAttributes "path" false oneGradient result.1.2 := by
  refine (canonicalElement_order_iff "path" false oneGradient unusedBudget strokedFill
    strokedFill.reverse (by decide) (List.reverse_perm strokedFill).symm).mpr ?_
  rintro ⟨-, -, hfirst | hfirst⟩
  · exact absurd hfirst (by unfold StyleFirst; decide)
  · exact absurd hfirst (by unfold StyleFirst; decide)

/-- A style before a fill by reference leaves two fills, and after it is refused. -/
theorem styledFill_depends_on_order :
    ¬ ∀ (name : String) (isRoot : Bool) (ids : SvgResourceIds) (budget : SanitizerBudget)
      (attrs others : Attributes), (attrs.map Prod.fst).Nodup → attrs.Perm others →
        (canonicalElement name isRoot ids attrs budget).toOption =
            (canonicalElement name isRoot ids others budget).toOption ∧
          ∀ result, canonicalElement name isRoot ids attrs budget = .ok result →
            CanonicalAttributes name isRoot ids result.1.2 := by
  intro h
  have hsame := (h "path" false oneGradient unusedBudget styledFill styledFill.reverse (by decide)
    (List.reverse_perm styledFill).symm).1
  have hfirst : (canonicalElement "path" false oneGradient styledFill unusedBudget).toOption =
      some (("path", [("fill", "red"), ("fill", "url(#a)")]), unusedBudget) := by decide +kernel
  have hlast :
      (canonicalElement "path" false oneGradient styledFill.reverse unusedBudget).toOption =
        none := by decide +kernel
  rw [hfirst, hlast] at hsame
  cases hsame

end Order

end SceneWorks.SvgSanitize

import SceneWorks.Library.Fallible
import SceneWorks.SvgSanitize.StaticSource
import Mathlib.Data.List.Infix

/-!
Whether a document that is accepted can depend on itself. What an element depends on is said here
the way a renderer sees it: a stylesheet rule attaches its resource to every element it matches,
whereas the check writes it down at the element that holds the stylesheet.
-/

namespace SceneWorks.SvgSanitize

variable {Selector : Type} {libraries : Libraries Selector} {state state' : SourceState Selector}
  {refuses : List Event → Event → Bool} {refusesTree : SourceState Selector → Bool}
  {property value target : String} {resource : ResourceReference}

/-- The property names a resource of the document. -/
def Names (property value target : String) : Prop :=
  (referenceKind property).isSome = true ∧ localUrlTarget (Text.trim value) = some target

/-- A resource an element names itself, by an attribute or in its inline style. -/
inductive NamesOwn (libraries : Libraries Selector) (attributes : Attributes) (target : String) :
    Prop
  | attribute {property value : String} (h : (property, value) ∈ attributes)
      (hnames : Names property value target)
  | inline {css : String} {rule : Rule Selector} {declaration : Declaration}
      (h : ("style", css) ∈ attributes) (hrule : rule ∈ inlineRules libraries css)
      (hdeclaration : declaration ∈ rule.declarations)
      (hnames : Names declaration.name declaration.value target)

/-- A stylesheet rule attaches a resource to the elements it matches. -/
inductive Attaches (state : SourceState Selector) (matched : Nat → Nat → Prop) (i j : Nat) : Prop
  | rule {k : Nat} {rule : Rule Selector} {declaration : Declaration} {target : String}
      (h : state.rules[k]? = some rule) (hmatched : matched k i)
      (hdeclaration : declaration ∈ rule.declarations)
      (hnames : Names declaration.name declaration.value target)
        (htarget : state.ids target = some j)

/-- What an element depends on without the stylesheets. -/
inductive DependsItself (libraries : Libraries Selector) (state : SourceState Selector)
    (i j : Nat) : Prop
  | child {node : StaticSvgSourceNode} (h : state.nodes[i]? = some node)
      (hchild : j ∈ node.children)
  | href {node : StaticSvgSourceNode} {target : String} (h : state.nodes[i]? = some node)
      (hhref : node.hrefTarget = some target) (htarget : state.ids target = some j)
  | own {node : StaticSvgSourceNode} {target : String} (h : state.nodes[i]? = some node)
      (hnames : NamesOwn libraries node.attributes target) (htarget : state.ids target = some j)

def Depends (libraries : Libraries Selector) (state : SourceState Selector)
    (matched : Nat → Nat → Prop) (i j : Nat) : Prop :=
  DependsItself libraries state i j ∨ Attaches state matched i j

section Recorded

theorem collect_mem {α β : Type} {f : α → Option (List β)} {items : List α} {found : List β}
    (h : collect f items = some found) {item : α} (hitem : item ∈ items) :
    ∃ part, f item = some part ∧ ∀ b ∈ part, b ∈ found := by
  obtain ⟨parts, hparts, rfl⟩ := Option.map_eq_some_iff.mp h
  obtain ⟨part, hpart, hf⟩ := Fallible.exists_image_of_mem_mapM hparts hitem
  exact ⟨part, hf, fun b hb => List.mem_flatten_of_mem hpart hb⟩

theorem trim_infix (value : String) : (Text.trim value).toList <:+: value.toList := by
  rw [Text.toList_trim]
  exact (List.rdropWhile_prefix _ _).isInfix.trans (List.dropWhile_suffix _).isInfix

/-- The name of a resource is written with a URL. -/
theorem containsText_url (h : localUrlTarget (Text.trim value) = some target) :
    Text.containsText "url" (Text.asciiLower value) = true := by
  obtain ⟨hmade, -⟩ := Option.filter_eq_some_iff.mp h
  obtain ⟨chars, hchars, -⟩ := Option.map_eq_some_iff.mp hmade
  obtain ⟨rest, hrest, -⟩ := Option.bind_eq_some_iff.mp hchars
  obtain ⟨front, back, hvalue⟩ := trim_infix value
  rw [Text.after_eq_some_iff.mp hrest] at hvalue
  rw [Text.containsText, List.any_eq_true]
  refine ⟨("url(#".toList ++ rest ++ back).map Char.toLower, ?_, ?_⟩
  · rw [List.mem_tails, Text.asciiLower, String.toList_ofList, ← hvalue]
    refine ⟨front.map Char.toLower, ?_⟩
    simp
  · rw [List.isPrefixOf_iff_prefix]
    exact ⟨(['(', '#'] ++ rest ++ back).map Char.toLower, by simp⟩

theorem record_of_names (h : Names property value target) {found : List ResourceReference}
    (hrecord : recordStaticCssResourceReference property value = some found) :
    ∃ resource ∈ found, resource.target = target := by
  unfold recordStaticCssResourceReference at hrecord
  rw [containsText_url h.2] at hrecord
  obtain ⟨kind, hkind⟩ := Option.isSome_iff_exists.mp h.1
  simp only [Bool.not_true, Bool.false_eq_true, if_false, h.2, hkind, Option.bind_eq_bind,
    Option.bind_some] at hrecord
  cases hrecord
  exact ⟨_, List.mem_singleton_self _, rfl⟩

theorem recordRules_of_names {rules : List (Rule Selector)} {found : List ResourceReference}
    (h : recordRules rules = some found) {rule : Rule Selector} (hrule : rule ∈ rules)
    {declaration : Declaration} (hdeclaration : declaration ∈ rule.declarations)
    (hnames : Names declaration.name declaration.value target) :
    ∃ resource ∈ found, resource.target = target := by
  obtain ⟨part, hpart, hinside⟩ := collect_mem h hrule
  obtain ⟨inner, hinner, hinside'⟩ := collect_mem hpart hdeclaration
  unfold recordDeclaration at hinner
  split at hinner
  · cases hinner
  · obtain ⟨resource, hresource, htarget⟩ := record_of_names hnames hinner
    exact ⟨resource, hinside resource (hinside' resource hresource), htarget⟩

theorem validateInline_of_names {css : String} {found : List ResourceReference}
    (h : validateInlineDeclarations libraries css = some found) {rule : Rule Selector}
    (hrule : rule ∈ inlineRules libraries css) {declaration : Declaration}
    (hdeclaration : declaration ∈ rule.declarations)
    (hnames : Names declaration.name declaration.value target) :
    ∃ resource ∈ found, resource.target = target := by
  unfold validateInlineDeclarations at h
  dsimp only at h
  split at h
  · cases h
  · exact recordRules_of_names h hrule hdeclaration hnames

variable {element : String} {attributes : Attributes} {before after : ElementState}

/-- The resources found so far stay, and those of one more attribute are added. -/
structure Extends (libraries : Libraries Selector) (entry : String × String)
    (before after : ElementState) : Prop where
  kept : ∀ resource ∈ before.resources, resource ∈ after.resources
  named : ∀ target, NamesOwn libraries [entry] target → ∃ resource ∈ after.resources,
    resource.target = target

theorem namesOwn_style_of_ne (hstyle : property ≠ "style") (hkind : referenceKind property = none) :
    ¬ NamesOwn libraries [(property, value)] target := by
  rintro (⟨hmem, hnames⟩ | ⟨hmem, -, -, -⟩)
  · obtain ⟨rfl, rfl⟩ : _ = property ∧ _ = value := by simpa using hmem
    have hsome := hnames.1
    rw [hkind] at hsome
    cases hsome
  · obtain ⟨rfl, -⟩ : "style" = property ∧ _ = value := by simpa using hmem
    exact hstyle rfl

/-- What is answered, if anything, has the resources found before and possibly more. -/
def Adds (before : ElementState) (answer : Option ElementState) : Prop :=
  ∀ after, answer = some after → ∃ resources, after.resources = before.resources ++ resources

theorem adds_none : Adds before none := fun _ h => by cases h

theorem adds_some {resources : List ResourceReference}
    (h : after.resources = before.resources ++ resources) : Adds before (some after) := by
  intro answer hanswer
  cases hanswer
  exact ⟨resources, h⟩

theorem adds_nothing (h : after.resources = before.resources) : Adds before (some after) :=
  adds_some (h.trans (List.append_nil _).symm)

theorem adds_bind {α : Type} {step : Option α} {next : α → Option ElementState}
    (h : ∀ a, Adds before (next a)) : Adds before (step >>= next) := by
  intro answer hanswer
  obtain ⟨a, -, ha⟩ := Option.bind_eq_some_iff.mp hanswer
  exact h a answer ha

theorem applyAttribute_adds :
    Adds before (applyAttribute libraries element before property value) := by
  unfold applyAttribute
  refine iteInduction (fun _ => ?_) fun _ => ?_
  · exact iteInduction (fun _ => adds_nothing rfl) fun _ => adds_none
  refine iteInduction (fun _ => adds_nothing rfl) fun _ => ?_
  refine iteInduction (fun _ => adds_bind fun references => adds_nothing rfl) fun _ => ?_
  refine iteInduction (fun _ => ?_) fun _ => ?_
  · exact adds_bind fun references => adds_bind fun resources => adds_some rfl
  refine iteInduction (fun _ => ?_) fun _ => ?_
  · refine iteInduction (fun _ => adds_none) fun _ => adds_bind fun target => ?_
    exact iteInduction (fun _ => adds_none) fun _ => adds_nothing rfl
  refine iteInduction (fun _ => ?_) fun _ => ?_
  · exact iteInduction (fun _ => adds_nothing rfl) fun _ => adds_none
  refine iteInduction (fun _ => ?_) fun _ => ?_
  · exact iteInduction (fun _ => adds_nothing rfl) fun _ => adds_none
  refine iteInduction (fun _ => adds_none) fun _ => ?_
  refine iteInduction (fun _ => ?_) fun _ => adds_nothing rfl
  exact adds_bind fun references => adds_bind fun resources => adds_some rfl

theorem applyAttribute_resource {kind : StaticReferenceKind}
    (hkind : referenceKind property = some kind)
    (h : applyAttribute libraries element before property value = some after) :
    ∃ resources, recordStaticCssResourceReference property value = some resources ∧
      after.resources = before.resources ++ resources := by
  have hproperty : property = "fill" ∨ property = "stroke" ∨ property = "clip-path" ∨
      property = "filter" := by
    simp only [referenceKind] at hkind
    grind
  have hread : applyAttribute libraries element before property value =
      (validateStaticCssComponents (libraries.tokens value)).bind fun references =>
        (recordStaticCssResourceReference property value).bind fun resources =>
          some { before with
            references := before.references ++ references
            resources := before.resources ++ resources } := by
    rcases hproperty with rfl | rfl | rfl | rfl <;> rfl
  rw [hread] at h
  obtain ⟨references, -, h⟩ := Option.bind_eq_some_iff.mp h
  obtain ⟨resources, hresources, h⟩ := Option.bind_eq_some_iff.mp h
  cases h
  exact ⟨resources, hresources, rfl⟩

theorem applyAttribute_extends
    (h : applyAttribute libraries element before property value = some after) :
    Extends libraries (property, value) before after := by
  by_cases hstyle : property = "style"
  · subst hstyle
    simp only [applyAttribute, String.reduceEq, if_false, if_true, Option.bind_eq_bind] at h
    obtain ⟨references, -, h⟩ := Option.bind_eq_some_iff.mp h
    obtain ⟨resources, hresources, h⟩ := Option.bind_eq_some_iff.mp h
    cases h
    refine ⟨fun resource hresource => List.mem_append_left _ hresource, ?_⟩
    rintro target (⟨hmem, hnames⟩ | ⟨hmem, hrule, hdeclaration, hnames⟩)
    · obtain ⟨rfl, rfl⟩ : _ = "style" ∧ _ = value := by simpa using hmem
      exact absurd hnames.1 (by decide)
    · obtain rfl : _ = value := by simpa using hmem
      obtain ⟨resource, hresource, htarget⟩ :=
        validateInline_of_names hresources hrule hdeclaration hnames
      exact ⟨resource, List.mem_append_right _ hresource, htarget⟩
  · cases hkind : referenceKind property with
    | none =>
        obtain ⟨resources, hafter⟩ := applyAttribute_adds after h
        refine ⟨fun resource hresource => by simp [hafter, hresource], ?_⟩
        exact fun target hnames => absurd hnames (namesOwn_style_of_ne hstyle hkind)
    | some kind =>
        obtain ⟨resources, hresources, hafter⟩ := applyAttribute_resource hkind h
        refine ⟨fun resource hresource => by simp [hafter, hresource], ?_⟩
        rintro target (⟨hmem, hnames⟩ | ⟨hmem, -, -, -⟩)
        · obtain ⟨rfl, rfl⟩ : _ = property ∧ _ = value := by simpa using hmem
          obtain ⟨resource, hresource, htarget⟩ := record_of_names hnames hresources
          exact ⟨resource, by simp [hafter, hresource], htarget⟩
        · obtain ⟨rfl, -⟩ : "style" = property ∧ _ = value := by simpa using hmem
          exact absurd rfl hstyle

theorem validateAttribute_extends {entry : String × String}
    (h : validateAttribute libraries element before entry = some after) :
    Extends libraries entry before after := by
  unfold validateAttribute at h
  dsimp only at h
  repeat' split at h
  all_goals first
    | cases h
    | skip
  exact applyAttribute_extends h

theorem namesOwn_iff_mem : NamesOwn libraries attributes target ↔
    ∃ entry ∈ attributes, NamesOwn libraries [entry] target := by
  constructor
  · rintro (⟨hmem, hnames⟩ | ⟨hmem, hrule, hdeclaration, hnames⟩)
    · exact ⟨_, hmem, .attribute (List.mem_singleton_self _) hnames⟩
    · exact ⟨_, hmem, .inline (List.mem_singleton_self _) hrule hdeclaration hnames⟩
  · rintro ⟨entry, hentry, ⟨hmem, hnames⟩ | ⟨hmem, hrule, hdeclaration, hnames⟩⟩
    · exact .attribute (List.mem_singleton.mp hmem ▸ hentry) hnames
    · exact .inline (List.mem_singleton.mp hmem ▸ hentry) hrule hdeclaration hnames

theorem foldlM_validateAttribute
    (h : attributes.foldlM (validateAttribute libraries element) before = some after) :
    (∀ resource ∈ before.resources, resource ∈ after.resources) ∧
      ∀ entry ∈ attributes, ∀ target, NamesOwn libraries [entry] target →
        ∃ resource ∈ after.resources, resource.target = target := by
  induction attributes generalizing before with
  | nil =>
      cases h
      exact ⟨fun _ hresource => hresource, by simp⟩
  | cons entry attributes ih =>
      rw [List.foldlM_cons] at h
      obtain ⟨middle, hfirst, hrest⟩ := Option.bind_eq_some_iff.mp h
      have hstep := validateAttribute_extends hfirst
      obtain ⟨hkept, hnamed⟩ := ih hrest
      refine ⟨fun resource hresource => hkept resource (hstep.kept resource hresource), ?_⟩
      intro other hother target hnames
      rcases List.mem_cons.mp hother with rfl | hlater
      · obtain ⟨resource, hresource, htarget⟩ := hstep.named target hnames
        exact ⟨resource, hkept resource hresource, htarget⟩
      · exact hnamed other hlater target hnames

theorem validateStaticSvgAttributes_named {hidden : Bool}
    (h : validateStaticSvgAttributes libraries element attributes hidden = some after)
    (hnames : NamesOwn libraries attributes target) :
    ∃ resource ∈ after.resources, resource.target = target := by
  unfold validateStaticSvgAttributes at h
  obtain ⟨found, hfound, h⟩ := Option.bind_eq_some_iff.mp h
  split at h
  · cases h
  · cases h
    obtain ⟨entry, hentry, hnames⟩ := namesOwn_iff_mem.mp hnames
    exact (foldlM_validateAttribute hfound).2 entry hentry target hnames

end Recorded

section Tree

def Child (state : SourceState Selector) (i j : Nat) : Prop :=
  ∃ node, state.nodes[i]? = some node ∧ j ∈ node.children

/-- The tree as far as it is read: every element hangs from the root, and what it names itself is
written down at it. -/
structure Built (libraries : Libraries Selector) (state : SourceState Selector) : Prop where
  opened : ∀ frame ∈ state.frames, frame.node < state.nodes.length
  grounded : ∀ root, state.root = some root → root < state.nodes.length
  identified : ∀ id node, state.ids id = some node → node < state.nodes.length
  below : ∀ i j, Child state i j → j < state.nodes.length
  rooted : ∀ j, j < state.nodes.length →
    ∃ root, state.root = some root ∧ Relation.ReflTransGen (Child state) root j
  own : ∀ i node target, state.nodes[i]? = some node → NamesOwn libraries node.attributes target →
    ∃ reference ∈ state.typedReferences, reference.source = i ∧ reference.resource.target = target

theorem built_empty : Built libraries (.empty : SourceState Selector) where
  opened := by simp [SourceState.empty]
  grounded := by simp [SourceState.empty]
  identified := by simp [SourceState.empty]
  below := by simp [SourceState.empty, Child]
  rooted := by simp [SourceState.empty]
  own := by simp [SourceState.empty]

variable {name : String} {attributes : Attributes} {hrefTarget : Option String} {i j : Nat}
  {node : StaticSvgSourceNode}

theorem addNode_length :
    (state.addNode name attributes hrefTarget).length = state.nodes.length + 1 := by
  unfold SourceState.addNode
  cases state.frames with
  | nil => simp
  | cons parent frames => simp

/-- An element once the next one is read, which is its child if it is the one that is open. -/
def SourceState.adopting (state : SourceState Selector) (i : Nat) (old : StaticSvgSourceNode) :
    StaticSvgSourceNode :=
  if state.frames.head?.any fun parent => parent.node = i then
    { old with children := old.children ++ [state.nodes.length] }
  else old

theorem addNode_of_lt (h : i < state.nodes.length) :
    (state.addNode name attributes hrefTarget)[i]? = state.nodes[i]?.map (state.adopting i) := by
  unfold SourceState.addNode SourceState.adopting
  cases state.frames with
  | nil => simp [List.getElem?_append, h]
  | cons parent frames =>
      rw [List.getElem?_append_left (by simpa using h), List.getElem?_modify]
      by_cases hparent : parent.node = i
      · simp [hparent]
      · simp [hparent]

theorem addNode_length_getElem? :
    (state.addNode name attributes hrefTarget)[state.nodes.length]? =
      some ⟨name, attributes, [], hrefTarget⟩ := by
  unfold SourceState.addNode
  cases state.frames with
  | nil => simp
  | cons parent frames => simp

theorem addNode_cases (h : (state.addNode name attributes hrefTarget)[i]? = some node) :
    (∃ old, state.nodes[i]? = some old ∧ node = state.adopting i old) ∨
      i = state.nodes.length ∧ node = ⟨name, attributes, [], hrefTarget⟩ := by
  have hlt : i < state.nodes.length + 1 := by
    rw [← addNode_length]
    exact (List.getElem?_eq_some_iff.mp h).1
  by_cases hold : i < state.nodes.length
  · rw [addNode_of_lt hold] at h
    obtain ⟨old, hat, hnode⟩ := Option.map_eq_some_iff.mp h
    exact .inl ⟨old, hat, hnode.symm⟩
  · obtain rfl : i = state.nodes.length := by omega
    rw [addNode_length_getElem?] at h
    exact .inr ⟨rfl, (Option.some.inj h).symm⟩

theorem adopting_attributes (old : StaticSvgSourceNode) :
    (state.adopting i old).attributes = old.attributes := by
  unfold SourceState.adopting
  split
  · rfl
  · rfl

theorem mem_adopting_children {old : StaticSvgSourceNode} :
    j ∈ (state.adopting i old).children ↔
      j ∈ old.children ∨ j = state.nodes.length ∧
        state.frames.head?.any (fun parent => parent.node = i) = true := by
  unfold SourceState.adopting
  split
  · next hopen => simp [hopen]
  · next hopen => simp [hopen]

theorem child_addNode {typed : SourceState Selector}
    (htyped : typed.nodes = state.addNode name attributes hrefTarget) (h : Child state i j) :
    Child typed i j := by
  obtain ⟨old, hold, hchild⟩ := h
  have hlt : i < state.nodes.length := (List.getElem?_eq_some_iff.mp hold).1
  refine ⟨state.adopting i old, ?_, mem_adopting_children.mpr (.inl hchild)⟩
  rw [htyped, addNode_of_lt hlt, hold, Option.map_some]

theorem child_addNode_parent {typed : SourceState Selector}
    (htyped : typed.nodes = state.addNode name attributes hrefTarget) {parent : StaticSvgFrame}
    {frames : List StaticSvgFrame} (hframes : state.frames = parent :: frames)
    (hparent : parent.node < state.nodes.length) :
    Child typed parent.node state.nodes.length := by
  have hold : state.nodes[parent.node]? = some state.nodes[parent.node] :=
    List.getElem?_eq_getElem hparent
  refine ⟨state.adopting parent.node state.nodes[parent.node], ?_,
    mem_adopting_children.mpr (.inr ⟨rfl, ?_⟩)⟩
  · rw [htyped, addNode_of_lt hparent, hold, Option.map_some]
  · simp [hframes]

/-- Where nothing has been read there is no root either. -/
theorem Built.nodes_eq_nil (h : Built libraries state) (hroot : state.root = none) :
    state.nodes.length = 0 := by
  by_contra hlength
  obtain ⟨root, hsome, -⟩ := h.rooted 0 (by omega)
  rw [hroot] at hsome
  cases hsome

theorem Built.addElement (h : Built libraries state) {empty : Bool} {element : ElementState}
    (hplace : state.frames = [] → state.root = none)
    (hnamed : ∀ target, NamesOwn libraries attributes target →
      ∃ resource ∈ element.resources, resource.target = target) :
    Built libraries (state.addElement name attributes empty element) := by
  have hnodes : (state.addElement name attributes empty element).nodes =
      state.addNode name attributes element.hrefTarget := rfl
  have hlength : (state.addElement name attributes empty element).nodes.length =
      state.nodes.length + 1 := addNode_length
  refine ⟨?_, ?_, ?_, ?_, ?_, ?_⟩
  · intro frame hframe
    rw [hlength]
    have hframes : frame ∈ state.frames ∨ frame.node = state.nodes.length := by
      simp only [SourceState.addElement] at hframe
      split at hframe
      · exact .inl hframe
      · rcases List.mem_cons.mp hframe with rfl | hframe
        · exact .inr rfl
        · exact .inl hframe
    rcases hframes with hframe | hnode
    · exact Nat.lt_succ_of_lt (h.opened frame hframe)
    · omega
  · intro root hroot
    rw [hlength]
    simp only [SourceState.addElement] at hroot
    split at hroot
    · cases hroot
      exact Nat.lt_succ_self _
    · exact Nat.lt_succ_of_lt (h.grounded root hroot)
  · intro id node hid
    rw [hlength]
    have hids : state.ids id = some node ∨ node = state.nodes.length := by
      simp only [SourceState.addElement] at hid
      cases hnew : element.id with
      | none =>
          rw [hnew] at hid
          exact .inl hid
      | some new =>
          rw [hnew] at hid
          by_cases hsame : id = new
          · subst hsame
            simp only [Function.update_self, Option.some.injEq] at hid
            exact .inr hid.symm
          · simp only [Function.update_of_ne hsame] at hid
            exact .inl hid
    rcases hids with hid | hnode
    · exact Nat.lt_succ_of_lt (h.identified id node hid)
    · omega
  · rintro i j ⟨node, hnode, hchild⟩
    rw [hlength]
    rw [hnodes] at hnode
    rcases addNode_cases hnode with ⟨old, hold, rfl⟩ | ⟨-, rfl⟩
    · rcases mem_adopting_children.mp hchild with hchild | ⟨hchild, -⟩
      · exact Nat.lt_succ_of_lt (h.below i j ⟨old, hold, hchild⟩)
      · omega
    · cases hchild
  · intro j hj
    rw [hlength] at hj
    cases hframes : state.frames with
    | nil =>
        have hempty := h.nodes_eq_nil (hplace hframes)
        obtain rfl : j = state.nodes.length := by omega
        exact ⟨_, by simp [SourceState.addElement, hframes], .refl⟩
    | cons parent frames =>
        have hparent : parent.node < state.nodes.length := h.opened parent (by simp [hframes])
        have hroot : (state.addElement name attributes empty element).root = state.root := by
          simp [SourceState.addElement, hframes]
        have hmono : ∀ i j, Child state i j →
            Child (state.addElement name attributes empty element) i j :=
          fun i j hchild => child_addNode hnodes hchild
        by_cases hold : j < state.nodes.length
        · obtain ⟨root, hsome, hpath⟩ := h.rooted j hold
          exact ⟨root, hroot.trans hsome, Relation.ReflTransGen.mono hmono _ _ hpath⟩
        · obtain rfl : j = state.nodes.length := by omega
          obtain ⟨root, hsome, hpath⟩ := h.rooted parent.node hparent
          exact ⟨root, hroot.trans hsome,
            (Relation.ReflTransGen.mono hmono _ _ hpath).tail
              (child_addNode_parent hnodes hframes hparent)⟩
  · intro i node target hnode hnames
    rw [hnodes] at hnode
    simp only [SourceState.addElement]
    rcases addNode_cases hnode with ⟨old, hold, rfl⟩ | ⟨rfl, rfl⟩
    · rw [adopting_attributes] at hnames
      obtain ⟨reference, hreference, hsource, htarget⟩ := h.own i old target hold hnames
      exact ⟨reference, List.mem_append_left _ hreference, hsource, htarget⟩
    · obtain ⟨resource, hresource, htarget⟩ := hnamed target hnames
      exact ⟨⟨state.nodes.length, resource⟩,
        List.mem_append_right _ (List.mem_map_of_mem hresource), rfl, htarget⟩

theorem Built.openElement (h : Built libraries state) {empty : Bool}
    (hopen : state.openElement libraries name attributes empty = some state') :
    Built libraries state' := by
  unfold SourceState.openElement at hopen
  split at hopen
  · cases hopen
  next hplaceable =>
  obtain ⟨element, helement, hopen⟩ := Option.bind_eq_some_iff.mp hopen
  repeat' split at hopen
  all_goals cases hopen
  refine h.addElement ?_ fun target hnames => validateStaticSvgAttributes_named helement hnames
  intro hframes
  simp only [SourceState.placeable, hframes] at hplaceable
  cases hroot : state.root with
  | none => rfl
  | some root => simp [hroot] at hplaceable

theorem Built.readStyle (h : Built libraries state) {frame : StaticSvgFrame}
    (hread : state.readStyle libraries frame = some state') :
    Built libraries state' ∧ state'.nodes = state.nodes ∧ state'.frames = state.frames := by
  unfold SourceState.readStyle at hread
  split at hread
  · obtain ⟨references, -, hread⟩ := Option.bind_eq_some_iff.mp hread
    obtain ⟨resources, -, hread⟩ := Option.bind_eq_some_iff.mp hread
    cases hread
    refine ⟨⟨h.opened, h.grounded, h.identified, h.below, h.rooted, ?_⟩, rfl, rfl⟩
    intro i node target hnode hnames
    obtain ⟨reference, hreference, hfound⟩ := h.own i node target hnode hnames
    exact ⟨reference, List.mem_append_left _ hreference, hfound⟩
  · cases hread
    exact ⟨h, rfl, rfl⟩

theorem Built.closeElement (h : Built libraries state)
    (hclose : state.closeElement libraries name = some state') : Built libraries state' := by
  unfold SourceState.closeElement at hclose
  split at hclose
  · cases hclose
  next frame frames hframes =>
  split at hclose
  · cases hclose
  obtain ⟨middle, hread, rfl⟩ := Option.map_eq_some_iff.mp hclose
  obtain ⟨hmiddle, hnodes, hopened⟩ := h.readStyle hread
  refine ⟨?_, hmiddle.grounded, hmiddle.identified, hmiddle.below, hmiddle.rooted, hmiddle.own⟩
  intro other hother
  refine hmiddle.opened other ?_
  rw [hopened, hframes]
  exact List.mem_cons_of_mem _ hother

theorem Built.pushStyleText (h : Built libraries state) (decoded : String) :
    Built libraries (state.pushStyleText decoded) := by
  refine ⟨?_, h.grounded, h.identified, h.below, h.rooted, h.own⟩
  intro frame hframe
  simp only [SourceState.pushStyleText] at hframe ⊢
  cases hframes : state.frames with
  | nil => simp [hframes] at hframe
  | cons top frames =>
      rw [hframes, List.modify_zero_cons] at hframe
      rcases List.mem_cons.mp hframe with rfl | hlater
      · exact h.opened top (by simp [hframes])
      · exact h.opened frame (by simp [hframes, hlater])

theorem Built.read (h : Built libraries state) {event : Event}
    (hread : state.read libraries event = some state') : Built libraries state' := by
  cases event with
  | element name attributes empty => exact h.openElement hread
  | close name => exact h.closeElement hread
  | text decoded =>
      simp only [SourceState.read, SourceState.readText] at hread
      repeat' split at hread
      all_goals cases hread
      · exact h
      · exact h.pushStyleText decoded
      · exact h
  | cdata decoded =>
      simp only [SourceState.read, SourceState.readCdata] at hread
      repeat' split at hread
      all_goals cases hread
      exact h.pushStyleText decoded
  | ignored =>
      cases hread
      exact h
  | disallowed => cases hread

theorem Built.readEvents (h : Built libraries state) {seen events : List Event}
    (hread : readEvents libraries refuses seen state events = some state') :
    Built libraries state' := by
  induction events generalizing seen state with
  | nil =>
      cases hread
      exact h
  | cons event events ih =>
      unfold SvgSanitize.readEvents at hread
      split at hread
      · cases hread
      · obtain ⟨middle, hfirst, hrest⟩ := Option.bind_eq_some_iff.mp hread
        exact ih (h.read hfirst) hrest

end Tree

section Graph

theorem Built.referenceEdges (h : Built libraries state) {i j : Nat}
    (hdepends : DependsItself libraries state i j) : j ∈ referenceEdges state i := by
  unfold SvgSanitize.referenceEdges
  cases hdepends with
  | child hnode hchild => simp [hnode, hchild]
  | href hnode hhref htarget => simp [hnode, hhref, htarget]
  | @own node target hnode hnames htarget =>
      obtain ⟨reference, hreference, hsource, hname⟩ := h.own i node target hnode hnames
      refine List.mem_append_right _ (List.mem_filterMap.mpr ⟨reference, ?_, ?_⟩)
      · simp [List.mem_filter, hreference, hsource]
      · rw [hname, htarget]

theorem child_le_leads (i j : Nat) (h : Child state i j) :
    DepthFirst.Leads (SvgSanitize.referenceEdges state) i j := by
  obtain ⟨node, hnode, hchild⟩ := h
  simp [DepthFirst.Leads, SvgSanitize.referenceEdges, hnode, hchild]

theorem validateStaticSvgSource_eq_some {events : List Event}
    (h : validateStaticSvgSource libraries refuses refusesTree events = some state) :
    Built libraries state ∧ ∃ root complete, state.root = some root ∧
      DepthFirst.visit (SvgSanitize.referenceEdges state) (state.nodes.length + 1) [] [] root =
        some complete := by
  unfold validateStaticSvgSource at h
  obtain ⟨found, hread, h⟩ := Option.bind_eq_some_iff.mp h
  obtain ⟨root, hroot, h⟩ := Option.bind_eq_some_iff.mp h
  repeat' split at h
  all_goals first
    | cases h
    | skip
  all_goals obtain ⟨complete, hvisit, h⟩ := Option.bind_eq_some_iff.mp h
  all_goals cases h
  exact ⟨built_empty.readEvents hread, root, complete, hroot, hvisit⟩

/-- An accepted document has no cycle of children, hrefs, attributes and inline styles. -/
theorem dependsItself_acyclic {events : List Event}
    (h : validateStaticSvgSource libraries refuses refusesTree events = some state) (i : Nat) :
    ¬ Relation.TransGen (DependsItself libraries state) i i := by
  intro hcycle
  obtain ⟨hbuilt, root, complete, hroot, hvisit⟩ := validateStaticSvgSource_eq_some h
  have hedges : ∀ i j, DependsItself libraries state i j →
      DepthFirst.Leads (SvgSanitize.referenceEdges state) i j :=
    fun i j hdepends => hbuilt.referenceEdges hdepends
  have hi : i < state.nodes.length := by
    obtain ⟨next, hnext, -⟩ := Relation.TransGen.head'_iff.mp hcycle
    cases hnext with
    | child hnode | href hnode | own hnode => exact (List.getElem?_eq_some_iff.mp hnode).1
  obtain ⟨root', hroot', hpath⟩ := hbuilt.rooted i hi
  obtain rfl : root = root' := Option.some.inj (hroot.symm.trans hroot')
  exact DepthFirst.acyclic_of_visit hvisit (Relation.ReflTransGen.mono child_le_leads _ _ hpath)
    (Relation.TransGen.mono hedges _ _ hcycle)

/-- A cycle either runs without the first relation or takes one of its steps. -/
theorem transGen_or_step {α : Type} {R S : α → α → Prop} {a b : α}
    (h : Relation.TransGen (fun a b => R a b ∨ S a b) a b) :
    Relation.TransGen R a b ∨ ∃ c d, S c d ∧
      Relation.ReflTransGen (fun a b => R a b ∨ S a b) a c ∧
        Relation.ReflTransGen (fun a b => R a b ∨ S a b) d b := by
  induction h with
  | single hstep =>
      rcases hstep with hr | hs
      · exact .inl (.single hr)
      · exact .inr ⟨_, _, hs, .refl, .refl⟩
  | @tail b c hpath hstep ih =>
      rcases hstep with hr | hs
      · rcases ih with hr' | ⟨d, e, hs, hto, hfrom⟩
        · exact .inl (hr'.tail hr)
        · exact .inr ⟨d, e, hs, hto, hfrom.tail (.inl hr)⟩
      · exact .inr ⟨_, _, hs, hpath.to_reflTransGen, .refl⟩

/-- An accepted document is free of recursive resources exactly when no stylesheet rule attaches a
resource to an element that the resource depends on. -/
theorem recursion_free_iff (events : List Event)
    (h : validateStaticSvgSource libraries refuses refusesTree events = some state)
    (matched : Nat → Nat → Prop) :
    (∀ i, ¬ Relation.TransGen (Depends libraries state matched) i i) ↔
      ∀ i j, Attaches state matched i j →
        ¬ Relation.ReflTransGen (Depends libraries state matched) j i := by
  constructor
  · intro hacyclic i j hattaches hback
    exact hacyclic i (Relation.TransGen.head' (.inr hattaches) hback)
  · intro hrules i hcycle
    rcases transGen_or_step hcycle with hitself | ⟨c, d, hattaches, hto, hfrom⟩
    · exact dependsItself_acyclic h i hitself
    · exact hrules c d hattaches (hfrom.trans hto)

/-- A stylesheet with one rule that clips the elements of one name by `#c`. -/
def clipSheet (element : String) : String := element ++ "\x7bclip-path:url(#c)\x7d"

/-- What the CSS libraries report of that stylesheet. -/
def clipLibraries (element : String) : Libraries String where
  styleSheet := fun css =>
    if css = clipSheet element then [⟨element, [⟨"clip-path", "url(#c)"⟩]⟩] else []
  tokens := fun css =>
    if css = clipSheet element then
      [.ident element, .block [.ident "clip-path", .other, .unquotedUrl "#c"]]
    else []

/-- A clip path with a rectangle in it, under that stylesheet. -/
def clipDocument (element : String) : List Event :=
  [.element "svg" [("xmlns", svgNamespace), ("width", "10"), ("height", "10")] false,
    .element "defs" [] false, .element "style" [] false, .text (clipSheet element), .close "style",
    .element "clipPath" [("id", "c")] false,
    .element "rect" [("width", "10"), ("height", "10")] true,
    .close "clipPath", .close "defs", .close "svg"]

def clipTree (element : String) : SourceState String :=
  (readEvents (clipLibraries element) (fun _ _ => false) [] .empty (clipDocument element)).getD
    .empty

/-- The elements of one name. -/
def namedElement (state : SourceState String) (element : String) (_ node : Nat) : Prop :=
  nodeName state node = some element

/-- No element of the document is a circle, so a stylesheet for circles attaches nothing. -/
theorem recursion_free_circle :
    validateStaticSvgSource (clipLibraries "circle") (fun _ _ => false) (fun _ => false)
        (clipDocument "circle") = some (clipTree "circle") ∧
      ∀ i, ¬ Relation.TransGen (Depends (clipLibraries "circle") (clipTree "circle")
        (namedElement (clipTree "circle") "circle")) i i := by
  have haccepted : validateStaticSvgSource (clipLibraries "circle") (fun _ _ => false)
      (fun _ => false) (clipDocument "circle") = some (clipTree "circle") := rfl
  refine ⟨haccepted, (recursion_free_iff (clipDocument "circle") haccepted _).mpr ?_⟩
  rintro i j ⟨-, hmatched, -, -, -⟩
  obtain ⟨node, hnode, hname⟩ := Option.map_eq_some_iff.mp hmatched
  have hnone : ∀ node ∈ (clipTree "circle").nodes, node.name ≠ "circle" := by decide
  exact absurd hname (hnone node (List.mem_of_getElem? hnode))

/-- A rectangle that a stylesheet clips by the clip path it stands in is accepted. -/
theorem selfClipping_accepted :
    ¬ ∀ (libraries : Libraries String) (refuses : List Event → Event → Bool)
      (refusesTree : SourceState String → Bool) (events : List Event) (state : SourceState String),
      validateStaticSvgSource libraries refuses refusesTree events = some state →
        ∀ (matched : Nat → Nat → Prop) (i : Nat),
          ¬ Relation.TransGen (Depends libraries state matched) i i := by
  intro h
  have haccepted :
      validateStaticSvgSource (clipLibraries "rect") (fun _ _ => false) (fun _ => false)
      (clipDocument "rect") = some (clipTree "rect") := rfl
  refine h _ _ _ _ _ haccepted (namedElement (clipTree "rect") "rect") 3 ?_
  have hchild : Depends (clipLibraries "rect") (clipTree "rect")
      (namedElement (clipTree "rect") "rect") 3 4 :=
    .inl (.child rfl (List.mem_singleton_self 4))
  have hclips : Depends (clipLibraries "rect") (clipTree "rect")
      (namedElement (clipTree "rect") "rect") 4 3 :=
    .inr (.rule (k := 0) rfl rfl (List.mem_singleton_self _) ⟨rfl, rfl⟩ rfl)
  exact .tail (.single hchild) hclips

end Graph

end SceneWorks.SvgSanitize

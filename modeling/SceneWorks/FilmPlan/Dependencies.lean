import Mathlib.Data.List.Sort
import Mathlib.Data.List.Nodup
import Mathlib.Data.String.Basic
import SceneWorks.Library.CycleSearch
import SceneWorks.Library.Debug

/-!
Which shots of a plan depend on which. An edge names another shot of the plan, is declared once, and
the edges together have no cycle; the search for one is the iterative depth-first walk over the
shots in the order of their ids.
-/

namespace SceneWorks.FilmPlan

open DepthFirst CycleSearch

structure ShotDependency where
  shotId : String
  kind : String
  note : String
  deriving DecidableEq

/-- Of a shot, what its dependencies are checked by. -/
structure Shot where
  id : String
  dependsOn : List ShotDependency
  deriving DecidableEq

structure ProductionPlan where
  shots : List Shot
  deriving DecidableEq

structure PlanDiagnostic where
  shotId : Option String
  field : String
  message : String
  deriving DecidableEq

def shotDependencyKinds : List String := ["conditioning", "continuity"]

namespace ProductionPlan

def ids (plan : ProductionPlan) : List String := plan.shots.map Shot.id

end ProductionPlan

/-- A map from ids to targets: of two shots of one id the later counts. -/
def edges (plan : ProductionPlan) (id : String) : List String :=
  match plan.shots.reverse.find? fun shot => decide (shot.id = id) with
  | some shot => shot.dependsOn.map ShotDependency.shotId
  | none => []

/-- The keys of that map, in order. -/
def edgeKeys (plan : ProductionPlan) : List String :=
  plan.ids.dedup.insertionSort (· ≤ ·)

/-- `none` when the fuel runs out. -/
def dependencyCycle (fuel : Nat) (plan : ProductionPlan) : Option (Option (List String)) :=
  search (edges plan) fuel (fun _ => none) (edgeKeys plan)

section Validation

variable (printable : Char → Bool)

def edgeFindings (ids : List String) (shot : Shot) (seen : List String) (edge : ShotDependency) :
    List PlanDiagnostic :=
  (if edge.kind ∈ shotDependencyKinds then []
    else [⟨some shot.id, "dependsOn.kind", "unknown dependency kind " ++
      Debug.string printable edge.kind ++ "; expected one of " ++
      String.intercalate ", " shotDependencyKinds⟩]) ++
  (if edge.shotId = shot.id then
      [⟨some shot.id, "dependsOn.shotId", "a shot cannot depend on itself"⟩]
    else if edge.shotId ∈ ids then []
    else [⟨some shot.id, "dependsOn.shotId",
      Debug.string printable edge.shotId ++ " is not a shot in this plan"⟩]) ++
  (if edge.shotId ∈ seen then
      [⟨some shot.id, "dependsOn.shotId",
        "shot " ++ Debug.string printable edge.shotId ++ " is depended on twice"⟩]
    else [])

def shotFindings (ids : List String) (shot : Shot) :
    List String → List ShotDependency → List PlanDiagnostic
  | _, [] => []
  | seen, edge :: rest =>
      edgeFindings printable ids shot seen edge ++
        shotFindings ids shot (edge.shotId :: seen) rest

/-- `none` when the fuel of the cycle search runs out. -/
def validateDependencies (fuel : Nat) (plan : ProductionPlan) : Option (List PlanDiagnostic) :=
  match plan.shots.flatMap fun shot => shotFindings printable plan.ids shot [] shot.dependsOn with
  | [] =>
      match dependencyCycle fuel plan with
      | none => none
      | some none => some []
      | some (some cycle) =>
          some [⟨none, "shots.dependsOn", "dependency cycle: " ++ String.intercalate " -> " cycle⟩]
  | findings => some findings

end Validation

/-- A declared edge of the plan. -/
def DependsOn (plan : ProductionPlan) (id target : String) : Prop :=
  ∃ shot ∈ plan.shots, shot.id = id ∧ ∃ edge ∈ shot.dependsOn, edge.shotId = target

/-- More fuel than this never runs out. -/
def searchBound (plan : ProductionPlan) : Nat :=
  (plan.shots.map fun shot => shot.dependsOn.length + 1).sum

section Edges

variable {plan : ProductionPlan} {shot : Shot} {id target : String}

theorem edges_id (hdistinct : plan.ids.Nodup) (hshot : shot ∈ plan.shots) :
    edges plan shot.id = shot.dependsOn.map ShotDependency.shotId := by
  unfold edges
  cases hfind : plan.shots.reverse.find? fun other => decide (other.id = shot.id) with
  | none =>
      have hnone := List.find?_eq_none.mp hfind shot (List.mem_reverse.mpr hshot)
      simp at hnone
  | some other =>
      have hid : other.id = shot.id := by simpa using List.find?_some hfind
      have hother := List.mem_reverse.mp (List.mem_of_find?_eq_some hfind)
      rw [List.inj_on_of_nodup_map hdistinct hother hshot hid]

theorem leads_edges_iff (hdistinct : plan.ids.Nodup) :
    Leads (edges plan) id target ↔ DependsOn plan id target := by
  constructor
  · intro h
    unfold Leads edges at h
    split at h
    · next shot hfind =>
        have hid : shot.id = id := by simpa using List.find?_some hfind
        obtain ⟨edge, hedge, rfl⟩ := List.mem_map.mp h
        exact ⟨shot, List.mem_reverse.mp (List.mem_of_find?_eq_some hfind), hid, edge, hedge, rfl⟩
    · cases h
  · rintro ⟨shot, hshot, rfl, edge, hedge, rfl⟩
    rw [Leads, edges_id hdistinct hshot]
    exact List.mem_map_of_mem hedge

theorem mem_edgeKeys_iff : id ∈ edgeKeys plan ↔ id ∈ plan.ids := by
  rw [edgeKeys, List.mem_insertionSort, List.mem_dedup]

theorem leads_eq_dependsOn (hdistinct : plan.ids.Nodup) :
    Leads (edges plan) = DependsOn plan := by
  funext id target
  exact propext (leads_edges_iff hdistinct)

theorem sum_left_edges (hdistinct : plan.ids.Nodup) :
    ∑ id ∈ plan.ids.toFinset, left (edges plan) (id, 0) = searchBound plan := by
  rw [List.sum_toFinset _ hdistinct, ProductionPlan.ids, List.map_map, searchBound]
  refine congrArg List.sum (List.map_congr_left fun shot hshot => ?_)
  simp only [Function.comp, left, edges_id hdistinct hshot, List.length_map, Nat.sub_zero]

end Edges

section Cycle

variable {plan : ProductionPlan} {fuel : Nat} {found : Option (List String)}

theorem exists_dependencyCycle (hdistinct : plan.ids.Nodup)
    (hknown : ∀ id target, DependsOn plan id target → target ∈ plan.ids) :
    ∃ found, ∀ fuel, searchBound plan < fuel → dependencyCycle fuel plan = some found := by
  have hclosed : ∀ id target, Leads (edges plan) id target → target ∈ plan.ids.toFinset := by
    intro id target hleads
    exact List.mem_toFinset.mpr (hknown id target ((leads_edges_iff hdistinct).mp hleads))
  have hroots : ∀ root ∈ edgeKeys plan, root ∈ plan.ids.toFinset := fun root hroot =>
    List.mem_toFinset.mpr (mem_edgeKeys_iff.mp hroot)
  have hbound : ∑ id ∈ plan.ids.toFinset, left (edges plan) (id, 0) < searchBound plan + 1 := by
    rw [sum_left_edges hdistinct]
    exact Nat.lt_succ_self _
  obtain ⟨found, hfound⟩ := exists_search (fun _ => none) hclosed hroots hbound
  refine ⟨found, fun fuel hfuel => ?_⟩
  obtain ⟨more, rfl⟩ := Nat.exists_eq_add_of_le (Nat.succ_le_of_lt hfuel)
  exact search_more hfound more

theorem dependencyCycle_eq_none_iff (hdistinct : plan.ids.Nodup)
    (h : dependencyCycle fuel plan = some found) :
    found = none ↔ ∀ id, ¬ Relation.TransGen (DependsOn plan) id id := by
  have hroots : ∀ id target, Leads (edges plan) id target → id ∈ edgeKeys plan := by
    intro id target hleads
    obtain ⟨shot, hshot, rfl, -⟩ := (leads_edges_iff hdistinct).mp hleads
    exact mem_edgeKeys_iff.mpr (List.mem_map_of_mem hshot)
  rw [← leads_eq_dependsOn hdistinct]
  exact search_eq_none_iff hroots h

theorem isCycle_of_dependencyCycle {cycle : List String}
    (h : dependencyCycle fuel plan = some (some cycle)) : IsCycle (edges plan) cycle :=
  isCycle_of_search (searching_nothing (edges plan)) h

/-- The search always ends, with a cycle of declared edges exactly when there is one. -/
theorem dependencyCycle_exact (plan : ProductionPlan) (hdistinct : plan.ids.Nodup)
    (hknown : ∀ shot ∈ plan.shots, ∀ edge ∈ shot.dependsOn, edge.shotId ∈ plan.ids) :
    ∃ found, (∀ fuel, searchBound plan < fuel → dependencyCycle fuel plan = some found) ∧
      (found = none ↔ ∀ id, ¬ Relation.TransGen (DependsOn plan) id id) ∧
      ∀ cycle, found = some cycle → 2 ≤ cycle.length ∧ cycle.head? = cycle.getLast? ∧
        cycle.IsChain (DependsOn plan) ∧ cycle.dropLast.Nodup := by
  have htargets : ∀ id target, DependsOn plan id target → target ∈ plan.ids := by
    rintro id target ⟨shot, hshot, -, edge, hedge, rfl⟩
    exact hknown shot hshot edge hedge
  obtain ⟨found, hfound⟩ := exists_dependencyCycle hdistinct htargets
  have hrun := hfound (searchBound plan + 1) (Nat.lt_succ_self _)
  refine ⟨found, hfound, dependencyCycle_eq_none_iff hdistinct hrun, ?_⟩
  rintro cycle rfl
  obtain ⟨hlong, hclosed, hlinked, honce⟩ := isCycle_of_dependencyCycle hrun
  rw [leads_eq_dependsOn hdistinct] at hlinked
  exact ⟨hlong, hclosed, hlinked, honce⟩

def onTo (id : String) : ShotDependency := ⟨id, "continuity", ""⟩

/-- Of four shots, three lead around. -/
def roundTrip : ProductionPlan where
  shots := [⟨"a", [onTo "d", onTo "b"]⟩, ⟨"b", [onTo "c"]⟩, ⟨"c", [onTo "b"]⟩, ⟨"d", []⟩]

theorem roundTrip_exact :
    ∃ found, (∀ fuel, searchBound roundTrip < fuel → dependencyCycle fuel roundTrip = some found) ∧
      (found = none ↔ ∀ id, ¬ Relation.TransGen (DependsOn roundTrip) id id) ∧
      ∀ cycle, found = some cycle → 2 ≤ cycle.length ∧ cycle.head? = cycle.getLast? ∧
        cycle.IsChain (DependsOn roundTrip) ∧ cycle.dropLast.Nodup :=
  dependencyCycle_exact roundTrip (by decide) (by decide)

example : dependencyCycle 9 roundTrip = some (some ["b", "c", "b"]) := by decide +kernel

end Cycle

section Findings

variable {printable : Char → Bool} {ids seen : List String} {shot : Shot} {edge : ShotDependency}

theorem edgeFindings_eq_nil_iff :
    edgeFindings printable ids shot seen edge = [] ↔
      edge.kind ∈ shotDependencyKinds ∧ (edge.shotId ≠ shot.id ∧ edge.shotId ∈ ids) ∧
        edge.shotId ∉ seen := by
  unfold edgeFindings
  rw [List.append_eq_nil_iff, List.append_eq_nil_iff, and_assoc]
  refine and_congr ?_ (and_congr ?_ ?_)
  · split <;> simp [*]
  · split <;> simp [*]
  · split <;> simp [*]

theorem shotFindings_eq_nil_iff {dependsOn : List ShotDependency} :
    shotFindings printable ids shot seen dependsOn = [] ↔
      (∀ edge ∈ dependsOn, edge.kind ∈ shotDependencyKinds ∧ edge.shotId ≠ shot.id ∧
        edge.shotId ∈ ids) ∧ (dependsOn.map ShotDependency.shotId).Nodup ∧
      ∀ edge ∈ dependsOn, edge.shotId ∉ seen := by
  induction dependsOn generalizing seen with
  | nil => simp [shotFindings]
  | cons edge rest ih =>
      rw [shotFindings, List.append_eq_nil_iff, edgeFindings_eq_nil_iff, ih]
      rw [List.forall_mem_cons, List.forall_mem_cons, List.map_cons, List.nodup_cons]
      simp only [List.mem_map, List.mem_cons, not_or, not_exists, not_and]
      constructor
      · rintro ⟨⟨hkind, hother, hnew⟩, hrest, hnodup, hfresh⟩
        exact ⟨⟨⟨hkind, hother⟩, hrest⟩, ⟨fun later hlater => (hfresh later hlater).1, hnodup⟩,
          hnew, fun later hlater => (hfresh later hlater).2⟩
      · rintro ⟨⟨⟨hkind, hother⟩, hrest⟩, ⟨hapart, hnodup⟩, hnew, hfresh⟩
        exact ⟨⟨hkind, hother, hnew⟩, hrest, hnodup, fun later hlater =>
          ⟨hapart later hlater, hfresh later hlater⟩⟩

/-- No findings: the edges are of known kinds, go to other shots, are declared once, and lead around
nowhere. -/
theorem validateDependencies_eq_nil_iff (printable : Char → Bool) {plan : ProductionPlan}
    {fuel : Nat} (hdistinct : plan.ids.Nodup) (hfuel : searchBound plan < fuel) :
    validateDependencies printable fuel plan = some [] ↔
      (∀ shot ∈ plan.shots, (∀ edge ∈ shot.dependsOn, edge.kind ∈ shotDependencyKinds ∧
        edge.shotId ≠ shot.id ∧ edge.shotId ∈ plan.ids) ∧
        (shot.dependsOn.map ShotDependency.shotId).Nodup) ∧
      ∀ id, ¬ Relation.TransGen (DependsOn plan) id id := by
  have hedges : (plan.shots.flatMap fun shot =>
      shotFindings printable plan.ids shot [] shot.dependsOn) = [] ↔
      ∀ shot ∈ plan.shots, (∀ edge ∈ shot.dependsOn, edge.kind ∈ shotDependencyKinds ∧
        edge.shotId ≠ shot.id ∧ edge.shotId ∈ plan.ids) ∧
        (shot.dependsOn.map ShotDependency.shotId).Nodup := by
    simp [List.flatMap_eq_nil_iff, shotFindings_eq_nil_iff]
  rw [validateDependencies, ← hedges]
  split
  · next hnil =>
      rw [iff_true_intro hnil, true_and]
      have htargets : ∀ id target, DependsOn plan id target → target ∈ plan.ids := by
        rintro id target ⟨shot, hshot, -, edge, hedge, rfl⟩
        exact ((hedges.mp hnil shot hshot).1 edge hedge).2.2
      obtain ⟨found, hfound⟩ := exists_dependencyCycle hdistinct htargets
      rw [← dependencyCycle_eq_none_iff hdistinct (hfound fuel hfuel), hfound fuel hfuel]
      cases found <;> simp
  · next hsome =>
      refine iff_of_false (fun h => hsome (Option.some.inj h)) fun h => hsome h.1

end Findings

end SceneWorks.FilmPlan

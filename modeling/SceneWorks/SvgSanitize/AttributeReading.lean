import SceneWorks.Library.Fallible
import SceneWorks.Library.Ledger
import SceneWorks.SvgSanitize.CanonicalElement

/-!
What an attribute comes to by itself: the attributes it stands for and what it takes from each meter
of the budget. The loop over an element's attributes reads each of them and charges for it, so its
result is known from the readings.
-/

namespace SceneWorks.SvgSanitize

open Fallible Ledger

section Meters

inductive Meter where
  | pathDataBytes
  | pathCommands
  | pathNumbers
  | points
  | transforms
  | dashes
  deriving DecidableEq

def Meter.limit : Meter → Nat
  | .pathDataBytes => maxSvgPathDataBytes
  | .pathCommands => maxSvgPathCommands
  | .pathNumbers => maxSvgPathNumbers
  | .points => maxSvgPointNumbers
  | .transforms => maxSvgTransformNumbers
  | .dashes => maxSvgDashNumbers

namespace SanitizerBudget

def used (budget : SanitizerBudget) : Meter → Nat
  | .pathDataBytes => budget.pathDataBytes
  | .pathCommands => budget.pathCommands
  | .pathNumbers => budget.pathNumbers
  | .points => budget.pointNumbers
  | .transforms => budget.transformNumbers
  | .dashes => budget.dashNumbers

def add (budget : SanitizerBudget) (amount : Nat) : Meter → SanitizerBudget
  | .pathDataBytes => { budget with pathDataBytes := budget.pathDataBytes + amount }
  | .pathCommands => { budget with pathCommands := budget.pathCommands + amount }
  | .pathNumbers => { budget with pathNumbers := budget.pathNumbers + amount }
  | .points => { budget with pointNumbers := budget.pointNumbers + amount }
  | .transforms => { budget with transformNumbers := budget.transformNumbers + amount }
  | .dashes => { budget with dashNumbers := budget.dashNumbers + amount }

end SanitizerBudget

/-- What is taken from a meter, where its limit allows. -/
abbrev Charge := Meter × Nat

def spend (budget : SanitizerBudget) (charge : Charge) : Option SanitizerBudget :=
  if budget.used charge.1 + charge.2 ≤ charge.1.limit then some (budget.add charge.2 charge.1)
  else none

theorem used_add_self (budget : SanitizerBudget) (amount : Nat) (meter : Meter) :
    (budget.add amount meter).used meter = budget.used meter + amount := by
  cases meter <;> rfl

theorem used_add_of_ne {meter other : Meter} (h : meter ≠ other) (budget : SanitizerBudget)
    (amount : Nat) : (budget.add amount meter).used other = budget.used other := by
  cases meter <;> cases other <;> first | rfl | exact absurd rfl h

theorem add_comm (budget : SanitizerBudget) (amount more : Nat) (meter other : Meter) :
    (budget.add amount meter).add more other = (budget.add more other).add amount meter := by
  cases meter <;> cases other <;> first | rfl | simp [SanitizerBudget.add, Nat.add_right_comm]

theorem commutes_spend : Commutes spend := by
  rintro budget ⟨meter, amount⟩ ⟨other, more⟩
  have htwo : ∀ (budget : SanitizerBudget) (meter other : Meter) (amount more : Nat)
      (result : SanitizerBudget), (spend budget (meter, amount)).bind (spend · (other, more)) =
        some result ↔ budget.used meter + amount ≤ meter.limit ∧
          (budget.add amount meter).used other + more ≤ other.limit ∧
            result = (budget.add amount meter).add more other := by
    intro budget meter other amount more result
    simp only [spend, Option.bind_eq_some_iff, Option.ite_none_right_eq_some, Option.some.injEq]
    constructor
    · rintro ⟨_, ⟨hfirst, rfl⟩, hsecond, rfl⟩
      exact ⟨hfirst, hsecond, rfl⟩
    · rintro ⟨hfirst, hsecond, rfl⟩
      exact ⟨_, ⟨hfirst, rfl⟩, hsecond, rfl⟩
  apply Option.ext
  intro result
  rw [htwo, htwo, add_comm]
  by_cases hsame : meter = other
  · subst hsame
    rw [used_add_self, used_add_self]
    constructor <;> rintro ⟨hfirst, hsecond, heq⟩ <;> exact ⟨by omega, by omega, heq⟩
  · rw [used_add_of_ne hsame, used_add_of_ne (Ne.symm hsame)]
    exact ⟨fun ⟨hfirst, hsecond, heq⟩ => ⟨hsecond, hfirst, heq⟩,
      fun ⟨hfirst, hsecond, heq⟩ => ⟨hsecond, hfirst, heq⟩⟩

end Meters

section Work

def pathWork (value : String) : Option (List Charge) :=
  (scanPathData value).toOption.map fun (commands, numbers) =>
    [(.pathDataBytes, value.utf8ByteSize), (.pathCommands, commands), (.pathNumbers, numbers)]

def pointsWork (value : String) : Option (List Charge) :=
  ((parseNumberList false "points" true value.toList).toOption.filter fun values =>
    !(values.length < 2 || values.length % 2 ≠ 0)).map fun values => [(.points, values.length)]

def transformWork (value : String) : Option (List Charge) :=
  (validateTransformList value).toOption.map fun numbers => [(.transforms, numbers)]

def dashesWork (key value : String) : Option (List Charge) :=
  ((parseNumberList true key true value.toList).toOption.filter fun values =>
    !(values.any (fun value => F64.lt value F64.zero) ||
      values.all (fun value => F64.eq value F64.zero))).map fun values =>
        [(.dashes, values.length)]

/-- What the value of an attribute is charged for, once it is in its format. -/
def resourceWork (element key value : String) : Option (List Charge) :=
  if (key = "fill-rule" || key = "clip-rule") && ! ["nonzero", "evenodd"].contains value then none
  else if key = "d" then pathWork value
  else if key = "points" then pointsWork value
  else if key = "transform" then transformWork value
  else if key = "stroke-dasharray" && value ≠ "none" then dashesWork key value
  else (validateFormat element key value).toOption.map fun _ => []

variable {budget budget' : SanitizerBudget}

theorem addUsed_eq_ok {used amount total : Nat} {overflow : String} :
    addUsed used amount overflow = .ok total ↔ used + amount < 2 ^ 64 ∧ used + amount = total := by
  unfold addUsed
  split
  · rename_i hfits
    exact ⟨fun h => ⟨hfits, Except.ok.inj h⟩, fun h => congrArg _ h.2⟩
  · rename_i hover
    exact ⟨nofun, fun h => absurd h.1 hover⟩

theorem within_eq_ok {used limit : Nat} {excess : String} {result : Unit} :
    within used limit excess = .ok result ↔ used ≤ limit := by
  unfold within
  split
  · rename_i hover
    exact ⟨nofun, fun h => absurd h (by omega)⟩
  · rename_i hfits
    exact ⟨fun _ => by omega, fun _ => rfl⟩

/-- A limit is below what a sum may overflow at, so that only the limit counts. -/
theorem limit_lt (meter : Meter) : meter.limit < 2 ^ 64 := by
  cases meter <;> decide

theorem spend_eq_some {charge : Charge} :
    spend budget charge = some budget' ↔
      budget.used charge.1 + charge.2 ≤ charge.1.limit ∧
        budget.add charge.2 charge.1 = budget' := by
  rw [spend, Option.ite_none_right_eq_some, Option.some.injEq]

/-- A count checked against its limit and put in place is a charge. -/
theorem charge_eq_ok (meter : Meter) {amount : Nat} {overflow excess : String}
    (put : Nat → SanitizerBudget)
    (hput : put (budget.used meter + amount) = budget.add amount meter) :
    (do
      let total ← addUsed (budget.used meter) amount overflow
      within total meter.limit excess
      return put total : Except String SanitizerBudget) = .ok budget' ↔
        spend budget (meter, amount) = some budget' := by
  rw [bind_eq_ok, spend_eq_some]
  constructor
  · rintro ⟨total, htotal, hrest⟩
    obtain ⟨-, rfl⟩ := addUsed_eq_ok.mp htotal
    obtain ⟨_, hwithin, hresult⟩ := bind_eq_ok.mp hrest
    exact ⟨within_eq_ok.mp hwithin, hput ▸ Except.ok.inj hresult⟩
  · rintro ⟨hwithin, hresult⟩
    refine ⟨_, addUsed_eq_ok.mpr ⟨Nat.lt_of_le_of_lt hwithin (limit_lt meter), rfl⟩,
      bind_eq_ok.mpr ⟨(), within_eq_ok.mpr hwithin, ?_⟩⟩
    rw [hput, hresult]
    rfl

theorem foldlM_spend_cons {charge : Charge} {work : List Charge} :
    (charge :: work).foldlM spend budget = some budget' ↔
      budget.used charge.1 + charge.2 ≤ charge.1.limit ∧
        work.foldlM spend (budget.add charge.2 charge.1) = some budget' := by
  rw [List.foldlM_cons, Option.bind_eq_bind, Option.bind_eq_some_iff]
  simp only [spend_eq_some]
  exact ⟨fun ⟨_, ⟨hfits, hnext⟩, hrest⟩ => ⟨hfits, hnext ▸ hrest⟩,
    fun ⟨hfits, hrest⟩ => ⟨_, ⟨hfits, rfl⟩, hrest⟩⟩

theorem foldlM_spend_singleton {charge : Charge} :
    [charge].foldlM spend budget = spend budget charge := by
  rw [List.foldlM_cons]
  cases spend budget charge <;> rfl

theorem spendPath_eq_ok {value : String} :
    spendPath value budget = .ok budget' ↔
      ∃ work, pathWork value = some work ∧ work.foldlM spend budget = some budget' := by
  simp only [spendPath, bind_eq_ok, addUsed_eq_ok, within_eq_ok, pathWork, Option.map_eq_some_iff,
    toOption_eq_some]
  constructor
  · rintro ⟨_, ⟨-, rfl⟩, _, hbytes, ⟨commands, numbers⟩, hscan, _, ⟨-, rfl⟩, _, ⟨-, rfl⟩, _,
      hcommands, _, hnumbers, hresult⟩
    exact ⟨_, ⟨_, hscan, rfl⟩, foldlM_spend_cons.mpr ⟨hbytes, foldlM_spend_cons.mpr ⟨hcommands,
      foldlM_spend_cons.mpr ⟨hnumbers, congrArg some (Except.ok.inj hresult)⟩⟩⟩⟩
  · rintro ⟨_, ⟨⟨commands, numbers⟩, hscan, rfl⟩, hspent⟩
    obtain ⟨hbytes, hafterBytes⟩ := foldlM_spend_cons.mp hspent
    obtain ⟨hcommands, hafterCommands⟩ := foldlM_spend_cons.mp hafterBytes
    obtain ⟨hnumbers, hresult⟩ := foldlM_spend_cons.mp hafterCommands
    exact ⟨_, ⟨Nat.lt_of_le_of_lt hbytes (limit_lt .pathDataBytes), rfl⟩, (), hbytes,
      (commands, numbers), hscan, _, ⟨Nat.lt_of_le_of_lt hcommands (limit_lt .pathCommands), rfl⟩,
      _, ⟨Nat.lt_of_le_of_lt hnumbers (limit_lt .pathNumbers), rfl⟩, (), hcommands, (), hnumbers,
      congrArg _ (Option.some.inj hresult)⟩

theorem spendPoints_eq_ok {value : String} :
    spendPoints value budget = .ok budget' ↔
      ∃ work, pointsWork value = some work ∧ work.foldlM spend budget = some budget' := by
  simp only [spendPoints, bind_eq_ok, pointsWork, Option.map_eq_some_iff, Option.filter_eq_some_iff,
    toOption_eq_some]
  constructor
  · rintro ⟨values, hvalues, hrest⟩
    split at hrest
    · cases hrest
    · rename_i hpairs
      refine ⟨_, ⟨values, ⟨hvalues, by simpa using hpairs⟩, rfl⟩, ?_⟩
      rw [foldlM_spend_singleton]
      exact (charge_eq_ok .points _ rfl).mp hrest
  · rintro ⟨_, ⟨values, ⟨hvalues, hpairs⟩, rfl⟩, hspent⟩
    refine ⟨values, hvalues, ?_⟩
    rw [if_neg (by simpa using hpairs)]
    rw [foldlM_spend_singleton] at hspent
    exact (charge_eq_ok .points _ rfl).mpr hspent

theorem spendTransform_eq_ok {value : String} :
    spendTransform value budget = .ok budget' ↔
      ∃ work, transformWork value = some work ∧ work.foldlM spend budget = some budget' := by
  rw [spendTransform, bind_eq_ok]
  simp only [transformWork, Option.map_eq_some_iff, toOption_eq_some]
  constructor
  · rintro ⟨numbers, hnumbers, hrest⟩
    refine ⟨_, ⟨numbers, hnumbers, rfl⟩, ?_⟩
    rw [foldlM_spend_singleton]
    exact (charge_eq_ok .transforms _ rfl).mp hrest
  · rintro ⟨_, ⟨numbers, hnumbers, rfl⟩, hspent⟩
    rw [foldlM_spend_singleton] at hspent
    exact ⟨numbers, hnumbers, (charge_eq_ok .transforms _ rfl).mpr hspent⟩

theorem spendDashes_eq_ok {key value : String} :
    spendDashes key value budget = .ok budget' ↔
      ∃ work, dashesWork key value = some work ∧ work.foldlM spend budget = some budget' := by
  rw [spendDashes, bind_eq_ok]
  simp only [dashesWork, Option.map_eq_some_iff, Option.filter_eq_some_iff, toOption_eq_some]
  constructor
  · rintro ⟨values, hvalues, hrest⟩
    split at hrest
    · cases hrest
    · rename_i hsum
      refine ⟨_, ⟨values, ⟨hvalues, by rw [Bool.eq_false_iff.mpr hsum]; rfl⟩, rfl⟩, ?_⟩
      rw [foldlM_spend_singleton]
      exact (charge_eq_ok .dashes _ rfl).mp hrest
  · rintro ⟨_, ⟨values, ⟨hvalues, hsum⟩, rfl⟩, hspent⟩
    rw [foldlM_spend_singleton] at hspent
    refine ⟨values, hvalues, ?_⟩
    rw [if_neg (by rw [Bool.not_eq_true'] at hsum; rw [hsum]; nofun)]
    exact (charge_eq_ok .dashes _ rfl).mpr hspent

/-- A value is accepted when it is in its format and its charges fit. -/
theorem validateAttributeResourceBudget_eq_ok {element key value : String} :
    validateAttributeResourceBudget element key value budget = .ok budget' ↔
      ∃ work, resourceWork element key value = some work ∧
        work.foldlM spend budget = some budget' := by
  unfold validateAttributeResourceBudget resourceWork
  split
  · exact ⟨nofun, nofun⟩
  · split
    · exact spendPath_eq_ok
    · split
      · exact spendPoints_eq_ok
      · split
        · exact spendTransform_eq_ok
        · split
          · exact spendDashes_eq_ok
          · cases validateFormat element key value with
            | error e => exact ⟨nofun, nofun⟩
            | ok _ =>
                exact ⟨fun h => ⟨_, rfl, congrArg _ (Except.ok.inj h)⟩,
                  fun ⟨_, hwork, h⟩ => by cases hwork; exact congrArg _ (Option.some.inj h)⟩

end Work

section Style

abbrev AttributeReading := Reading (String × String) Charge

/-- Nothing is left of it. -/
def AttributeReading.empty : AttributeReading := ⟨[], [], false⟩

variable (element style : String) (ids : SvgResourceIds)

def propertyReading (key value : String) : Option AttributeReading :=
  if inertDeclarations.contains (key, value) then some .empty
  else if key = "enable-background" && element = "svg" then
    (validateInertEnableBackground value).toOption.map fun _ => .empty
  else
    match (if key = "fill" then localUrlTarget value else none) with
    | some target =>
        if ids target = some .linearGradient then some ⟨[(key, value)], [], false⟩ else none
    | none =>
        if !allowedPresentationProperty key || value = "" || unsafeAttributeValue value then none
        else (resourceWork element key value).map fun work => ⟨[(key, value)], work, false⟩

/-- A property that is not in the list of those seen, and its value. -/
def declarationOf (seen : List String) (declaration : String) : Option (String × String) :=
  match Text.splitOnce ':' declaration with
  | none => none
  | some (key, value) =>
      let key := Text.trim key
      let value := Text.trim value
      if key = "" || value.toList.contains ':' || seen.contains key then none
      else some (key, value)

def declarationsReading : List String → List String → Option AttributeReading
  | _, [] => some .empty
  | seen, declaration :: rest =>
      if Text.trim declaration = "" then
        if rest.isEmpty && style.toList.getLast? = some ';' then some .empty else none
      else do
        let (key, value) ← declarationOf seen declaration
        let first ← propertyReading element ids key value
        let later ← declarationsReading (seen ++ [key]) rest
        return ⟨first.adds ++ later.adds, first.work ++ later.work, false⟩

def styleReading : Option AttributeReading :=
  if !styleAllowed style then none
  else declarationsReading element style ids [] (Text.splitOn ';' style)

variable {element style ids} {budget budget' : SanitizerBudget} {attrs attrs' : Attributes}

theorem applyProperty_eq_ok {key value : String} :
    applyProperty element ids key value attrs budget = .ok (attrs', budget') ↔
      ∃ r, propertyReading element ids key value = some r ∧ attrs' = attrs ++ r.adds ∧
        r.work.foldlM spend budget = some budget' := by
  have hempty : (.ok (attrs, budget) : Except String _) = .ok (attrs', budget') ↔
      ∃ r, some AttributeReading.empty = some r ∧ attrs' = attrs ++ r.adds ∧
        r.work.foldlM spend budget = some budget' := by
    constructor
    · intro h
      obtain ⟨rfl, rfl⟩ := Prod.mk.inj (Except.ok.inj h)
      exact ⟨_, rfl, (List.append_nil attrs).symm, rfl⟩
    · rintro ⟨_, hr, rfl, hspent⟩
      obtain rfl := Option.some.inj hr
      obtain rfl := Option.some.inj hspent
      exact congrArg _ (Prod.ext (List.append_nil attrs).symm rfl)
  unfold applyProperty propertyReading
  split
  · exact hempty
  · split
    · cases validateInertEnableBackground value with
      | error e => exact ⟨nofun, nofun⟩
      | ok _ => exact hempty
    · generalize (if key = "fill" then localUrlTarget value else none) = named
      cases named with
      | some target =>
          dsimp only
          split
          · constructor
            · intro h
              obtain ⟨rfl, rfl⟩ := Prod.mk.inj (Except.ok.inj h)
              exact ⟨⟨[(key, value)], [], false⟩, rfl, rfl, rfl⟩
            · rintro ⟨_, hr, rfl, hspent⟩
              obtain rfl := Option.some.inj hr
              obtain rfl := Option.some.inj hspent
              rfl
          · exact ⟨nofun, nofun⟩
      | none =>
          dsimp only
          split
          · exact ⟨nofun, nofun⟩
          · rw [bind_eq_ok]
            simp only [validateAttributeResourceBudget_eq_ok, Option.map_eq_some_iff]
            constructor
            · rintro ⟨_, ⟨work, hwork, hspent⟩, hresult⟩
              obtain ⟨rfl, rfl⟩ := Prod.mk.inj (Except.ok.inj hresult)
              exact ⟨_, ⟨work, hwork, rfl⟩, rfl, hspent⟩
            · rintro ⟨_, ⟨work, hwork, rfl⟩, rfl, hspent⟩
              exact ⟨_, ⟨work, hwork, hspent⟩, rfl⟩

theorem readProperty_eq_ok {state next : StyleState} {declaration : String} :
    readProperty element ids state declaration = .ok next ↔
      ∃ key value r, declarationOf state.seenProperties declaration = some (key, value) ∧
        propertyReading element ids key value = some r ∧ next.attrs = state.attrs ++ r.adds ∧
          next.seenProperties = state.seenProperties ++ [key] ∧
            r.work.foldlM spend state.budget = some next.budget := by
  have hnone : (malformedDeclaration : Except String StyleState) = .ok next ↔
      ∃ key value r, none = some (key, value) ∧
        propertyReading element ids key value = some r ∧ next.attrs = state.attrs ++ r.adds ∧
          next.seenProperties = state.seenProperties ++ [key] ∧
            r.work.foldlM spend state.budget = some next.budget :=
    ⟨nofun, fun ⟨_, _, _, hnever, _⟩ => nomatch hnever⟩
  unfold readProperty declarationOf
  cases Text.splitOnce ':' declaration with
  | none => exact hnone
  | some parts =>
      dsimp only
      split
      · exact hnone
      · rw [bind_eq_ok]
        simp only [Prod.exists, applyProperty_eq_ok, Option.some.injEq, Prod.mk.injEq]
        constructor
        · rintro ⟨attrs, budget, ⟨r, hr, rfl, hspent⟩, hnext⟩
          obtain rfl := Except.ok.inj hnext
          exact ⟨_, _, r, ⟨rfl, rfl⟩, hr, rfl, rfl, hspent⟩
        · rintro ⟨_, _, r, ⟨rfl, rfl⟩, hr, hattrs, hseen, hspent⟩
          refine ⟨_, _, ⟨r, hr, rfl, hspent⟩, congrArg Except.ok ?_⟩
          cases next
          exact (StyleState.mk.injEq ..).mpr ⟨hattrs.symm, hseen.symm, rfl⟩

theorem unread_eq_ok {state : StyleState} :
    (∃ last, (.ok state : Except String StyleState) = .ok last ∧ last.attrs = attrs' ∧
        last.budget = budget') ↔
      ∃ r, some AttributeReading.empty = some r ∧ attrs' = state.attrs ++ r.adds ∧
        r.work.foldlM spend state.budget = some budget' := by
  constructor
  · rintro ⟨_, hlast, rfl, rfl⟩
    obtain rfl := Except.ok.inj hlast
    exact ⟨_, rfl, (List.append_nil _).symm, rfl⟩
  · rintro ⟨_, hr, rfl, hspent⟩
    obtain rfl := Option.some.inj hr
    exact ⟨_, rfl, (List.append_nil _).symm, Option.some.inj hspent⟩

theorem readDeclarations_eq_ok {state : StyleState} {declarations : List String} :
    (∃ last, readDeclarations element style ids state declarations = .ok last ∧
        last.attrs = attrs' ∧ last.budget = budget') ↔
      ∃ r, declarationsReading element style ids state.seenProperties declarations = some r ∧
        attrs' = state.attrs ++ r.adds ∧ r.work.foldlM spend state.budget = some budget' := by
  induction declarations generalizing state with
  | nil => exact unread_eq_ok
  | cons declaration rest ih =>
      rw [readDeclarations, declarationsReading]
      split
      · split
        · exact unread_eq_ok
        · exact ⟨nofun, nofun⟩
      · simp only [bind_eq_ok, Option.bind_eq_bind, Option.bind_eq_some_iff, readProperty_eq_ok]
        constructor
        · rintro ⟨last, ⟨next, ⟨key, value, first, hdeclared, hfirst, hattrs, hseen, hspent⟩,
            hlast⟩, hattrs', hbudget⟩
          obtain ⟨later, hlater, happended, hlaterSpent⟩ := ih.mp ⟨last, hlast, hattrs', hbudget⟩
          rw [hseen] at hlater
          refine ⟨_, ⟨(key, value), hdeclared, first, hfirst, later, hlater, rfl⟩, ?_, ?_⟩
          · rw [happended, hattrs, List.append_assoc]
          · rw [List.foldlM_append, hspent]
            exact hlaterSpent
        · rintro ⟨_, ⟨⟨key, value⟩, hdeclared, first, hfirst, later, hlater, hr⟩, hattrs', hspent⟩
          obtain rfl := Option.some.inj hr
          rw [List.foldlM_append, Option.bind_eq_bind, Option.bind_eq_some_iff] at hspent
          obtain ⟨between, hfirstSpent, hlaterSpent⟩ := hspent
          let next : StyleState :=
            ⟨state.attrs ++ first.adds, state.seenProperties ++ [key], between⟩
          have hnext : ∃ last, readDeclarations element style ids next rest = .ok last ∧
              last.attrs = attrs' ∧ last.budget = budget' :=
            ih.mpr ⟨later, hlater, hattrs'.trans (List.append_assoc ..).symm, hlaterSpent⟩
          obtain ⟨last, hlast, hattrs, hbudget⟩ := hnext
          exact ⟨last, ⟨_, ⟨key, value, first, hdeclared, hfirst, rfl, rfl, hfirstSpent⟩, hlast⟩,
            hattrs, hbudget⟩

theorem canonicalPresentationStyle_eq_ok :
    canonicalPresentationStyle element style ids budget = .ok (attrs', budget') ↔
      ∃ r, styleReading element style ids = some r ∧ attrs' = r.adds ∧
        r.work.foldlM spend budget = some budget' := by
  unfold canonicalPresentationStyle styleReading
  split
  · exact ⟨nofun, nofun⟩
  · have hread : (∃ last, readDeclarations element style ids ⟨[], [], budget⟩
        (Text.splitOn ';' style) = .ok last ∧ last.attrs = attrs' ∧ last.budget = budget') ↔ _ :=
      readDeclarations_eq_ok
    refine Iff.trans ?_ hread
    rw [bind_eq_ok]
    constructor
    · rintro ⟨last, hlast, hresult⟩
      obtain ⟨rfl, rfl⟩ := Prod.mk.inj (Except.ok.inj hresult)
      exact ⟨last, hlast, rfl, rfl⟩
    · rintro ⟨last, hlast, rfl, rfl⟩
      exact ⟨last, hlast, rfl⟩

end Style

section Attribute

variable (name : String) (isRoot : Bool) (ids : SvgResourceIds)

def plainReading (key value : String) : Option AttributeReading :=
  let namespaceOk := key = "xmlns" && isRoot && name = "svg" && value = svgNamespace
  if !allowedAttribute name key || (key = "xmlns" && !namespaceOk) ||
      (!namespaceOk && unsafeAttributeValue value) then none
  else (resourceWork name key value).map fun work => ⟨[(key, value)], work, false⟩

/-- What is left of an attribute. A reference does not ask for its name. -/
def reading (attr : String × String) : Option AttributeReading :=
  match strippedRetainedAttribute name attr.1 attr.2 isRoot with
  | .error _ => none
  | .ok true => some .empty
  | .ok false =>
      if attr.1 = "style" then styleReading name attr.2 ids
      else
        match referenceKindOf attr.1 attr.2 with
        | some expected =>
            (resolveReference name ids attr.1 attr.2 expected).toOption.map fun _ =>
              ⟨[attr], [], true⟩
        | none => plainReading name isRoot attr.1 attr.2

def SameName (a b : String × String) : Prop := a.1 = b.1

theorem declarationsReading_lenient {element style : String} {seen declarations : List String}
    {r : AttributeReading} (h : declarationsReading element style ids seen declarations = some r) :
    r.lenient = false := by
  cases declarations with
  | nil =>
      obtain rfl := Option.some.inj h
      rfl
  | cons declaration rest =>
      rw [declarationsReading] at h
      split at h
      · split at h
        · obtain rfl := Option.some.inj h
          rfl
        · cases h
      · simp only [Option.bind_eq_bind, Option.bind_eq_some_iff] at h
        obtain ⟨_, _, _, _, _, _, hr⟩ := h
        obtain rfl := Option.some.inj hr
        rfl

theorem styleReading_lenient {style : String} {r : AttributeReading}
    (h : styleReading name style ids = some r) : r.lenient = false := by
  unfold styleReading at h
  split at h
  · cases h
  · exact declarationsReading_lenient ids h

variable {name isRoot ids} {state next : ElementAttributes}

theorem holdsKey_eq_false {attrs : Attributes} {key : String} :
    holdsKey attrs key = false ↔ ∀ attr ∈ attrs, attr.1 ≠ key := by
  simp [holdsKey]

theorem applyStyle_eq_ok {value : String} :
    applyStyle name ids state value = .ok next ↔ ∃ r, styleReading name value ids = some r ∧
      (r.lenient = true ∨ ∀ x ∈ state.1, ∀ y ∈ r.adds, ¬ SameName x y) ∧
      next.1 = state.1 ++ r.adds ∧ r.work.foldlM spend state.2 = some next.2 := by
  rw [applyStyle, bind_eq_ok]
  simp only [Prod.exists, canonicalPresentationStyle_eq_ok]
  constructor
  · rintro ⟨attrs, budget, ⟨r, hr, rfl, hspent⟩, hrest⟩
    split at hrest
    · cases hrest
    · rename_i hfree
      obtain rfl := Except.ok.inj hrest
      refine ⟨r, hr, .inr fun x hx y hy hsame => hfree ?_, rfl, hspent⟩
      have hnames : x.1 = y.1 := hsame
      exact List.any_eq_true.mpr ⟨y, hy, List.any_eq_true.mpr ⟨x, hx, decide_eq_true hnames⟩⟩
  · rintro ⟨r, hr, hclear, hnext, hspent⟩
    refine ⟨r.adds, next.2, ⟨r, hr, rfl, hspent⟩, ?_⟩
    rw [if_neg]
    · exact congrArg Except.ok (Prod.ext hnext.symm rfl)
    · intro hclash
      obtain ⟨y, hy, hheld⟩ := List.any_eq_true.mp hclash
      obtain ⟨x, hx, hsame⟩ := List.any_eq_true.mp hheld
      rcases hclear with hlenient | hfree
      · rw [styleReading_lenient name ids hr] at hlenient
        cases hlenient
      · have hnames : x.1 = y.1 := of_decide_eq_true hsame
        exact hfree x hx y hy hnames

theorem applyPlain_eq_ok {key value : String} :
    applyPlain name isRoot state key value = .ok next ↔
      ∃ r, plainReading name isRoot key value = some r ∧
        (r.lenient = true ∨ ∀ x ∈ state.1, ∀ y ∈ r.adds, ¬ SameName x y) ∧
        next.1 = state.1 ++ r.adds ∧ r.work.foldlM spend state.2 = some next.2 := by
  unfold applyPlain plainReading
  dsimp only
  split
  · exact ⟨nofun, nofun⟩
  · rw [bind_eq_ok]
    simp only [validateAttributeResourceBudget_eq_ok, Option.map_eq_some_iff]
    constructor
    · rintro ⟨budget, ⟨work, hwork, hspent⟩, hrest⟩
      split at hrest
      · cases hrest
      · rename_i hfree
        obtain rfl := Except.ok.inj hrest
        refine ⟨_, ⟨work, hwork, rfl⟩, .inr fun x hx y hy hsame => ?_, rfl, hspent⟩
        obtain rfl := List.mem_singleton.mp hy
        exact holdsKey_eq_false.mp (Bool.eq_false_iff.mpr hfree) x hx hsame
    · rintro ⟨_, ⟨work, hwork, rfl⟩, hclear, hnext, hspent⟩
      refine ⟨next.2, ⟨work, hwork, hspent⟩, ?_⟩
      have hfree : holdsKey state.1 key = false := by
        refine holdsKey_eq_false.mpr fun x hx => ?_
        exact (hclear.resolve_left nofun) x hx (key, value) List.mem_cons_self
      rw [hfree]
      exact congrArg Except.ok (Prod.ext hnext.symm rfl)

/-- A step of the loop reads its attribute, and asks for the names unless it is a reference. -/
theorem canonicalAttribute_eq_ok {attr : String × String} :
    canonicalAttribute name isRoot ids state attr = .ok next ↔
      ∃ r, reading name isRoot ids attr = some r ∧
        (r.lenient = true ∨ ∀ x ∈ state.1, ∀ y ∈ r.adds, ¬ SameName x y) ∧
        next.1 = state.1 ++ r.adds ∧ r.work.foldlM spend state.2 = some next.2 := by
  obtain ⟨key, value⟩ := attr
  unfold canonicalAttribute reading
  dsimp only
  cases strippedRetainedAttribute name key value isRoot with
  | error e => exact ⟨nofun, nofun⟩
  | ok stripped =>
      cases stripped with
      | true =>
          constructor
          · intro h
            obtain rfl := Except.ok.inj h
            exact ⟨_, rfl, .inr nofun, (List.append_nil _).symm, rfl⟩
          · rintro ⟨_, hr, -, hnext, hspent⟩
            obtain rfl := Option.some.inj hr
            refine congrArg Except.ok (Prod.ext ?_ (Option.some.inj hspent))
            rw [hnext]
            exact (List.append_nil _).symm
      | false =>
          dsimp only
          rw [ok_bind, if_neg Bool.false_ne_true]
          split
          · exact applyStyle_eq_ok
          · cases referenceKindOf key value with
            | none => exact applyPlain_eq_ok
            | some expected =>
                dsimp only
                cases resolveReference name ids key value expected with
                | error e => exact ⟨nofun, nofun⟩
                | ok _ =>
                    constructor
                    · intro h
                      obtain rfl := Except.ok.inj h
                      exact ⟨_, rfl, .inl rfl, rfl, rfl⟩
                    · rintro ⟨_, hr, -, hnext, hspent⟩
                      obtain rfl := Option.some.inj hr
                      exact congrArg Except.ok (Prod.ext hnext.symm (Option.some.inj hspent))

end Attribute

end SceneWorks.SvgSanitize

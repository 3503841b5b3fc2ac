import Mathlib.Data.Nat.Bitwise
import Mathlib.Data.Rat.Defs
import Mathlib.Data.UInt

/-!
# Conditions (game/Conditions/ConditionMgr.cpp)

A condition is a question about the objects that it is checked for. `Meets` answers it, and
`GetSearcherTypeMaskForCondition` says which types of objects on the grid can have the answer yes. What an
object is and does is known to a `World`; what the loaded stores hold, to a `Data`.
-/

namespace HysteriaCore.Conditions

inductive ConditionTypes where
  | none | aura | item | itemEquipped | zoneid | reputationRank | team | skill | questrewarded | questtaken
  | drunkenstate | worldState | activeEvent | instanceInfo | questNone | playerClass | race | achievement | title
  | spawnmask | gender | unitState | mapid | areaid | creatureType | spell | phasemask | level | questComplete
  | nearCreature | nearGameobject | objectEntryGuid | typeMask | relationTo | reactionTo | distanceTo | alive | hpVal
  | hpPct | realmAchievement | inWater | questSatisfyExclusive | hasAuraType | guildLevel
  | other (n : ℕ)
deriving DecidableEq

def ConditionTypes.ofNat : ℕ → ConditionTypes
  | 0 => none | 1 => aura | 2 => item | 3 => itemEquipped | 4 => zoneid | 5 => reputationRank | 6 => team | 7 => skill
  | 8 => questrewarded | 9 => questtaken | 10 => drunkenstate | 11 => worldState | 12 => activeEvent
  | 13 => instanceInfo | 14 => questNone | 15 => playerClass | 16 => race | 17 => achievement | 18 => title
  | 19 => spawnmask | 20 => gender | 21 => unitState | 22 => mapid | 23 => areaid | 24 => creatureType | 25 => spell
  | 26 => phasemask | 27 => level | 28 => questComplete | 29 => nearCreature | 30 => nearGameobject
  | 31 => objectEntryGuid | 32 => typeMask | 33 => relationTo | 34 => reactionTo | 35 => distanceTo | 36 => alive
  | 37 => hpVal | 38 => hpPct | 39 => realmAchievement | 40 => inWater | 50 => questSatisfyExclusive
  | 51 => hasAuraType | 52 => guildLevel
  | n => other n

/-- The source types that `GetMaxAvailableConditionTargets` tells apart from the others. -/
inductive ConditionSourceType where
  | spellImplicitTarget | gossipMenu | gossipMenuOption | creatureTemplateVehicle | spell | spellClickEvent
  | vehicleSpell | smartEvent | npcVendor | spellProc
  | other (n : ℕ)
deriving DecidableEq

def ConditionSourceType.ofNat : ℕ → ConditionSourceType
  | 13 => spellImplicitTarget | 14 => gossipMenu | 15 => gossipMenuOption | 16 => creatureTemplateVehicle
  | 17 => spell | 18 => spellClickEvent | 21 => vehicleSpell | 22 => smartEvent | 23 => npcVendor | 24 => spellProc
  | n => other n

structure Condition where
  SourceType : ConditionSourceType := .other 0
  ElseGroup : UInt32 := 0
  ConditionType : ConditionTypes := .none
  ConditionValue1 : UInt32 := 0
  ConditionValue2 : UInt32 := 0
  ConditionValue3 : UInt32 := 0
  ReferenceId : ℕ := 0
  ConditionTarget : UInt8 := 0
  NegativeCondition : Bool := false
deriving DecidableEq

/-- An `ASSERT` that fails, or a read through a null pointer or past an array. -/
inductive Stop where
  | assertion
  | invalidRead
deriving DecidableEq

/-! ### Objects -/

/-- The types of objects on the grid. -/
inductive Kind where
  | corpse | creature | dynamicObject | gameObject | player
deriving DecidableEq, Inhabited

namespace Kind

def typeId : Kind → ℕ
  | creature => 3
  | player => 4
  | gameObject => 5
  | dynamicObject => 6
  | corpse => 7

def typeMask : Kind → ℕ
  | creature => 0x09
  | player => 0x19
  | gameObject => 0x21
  | dynamicObject => 0x41
  | corpse => 0x81

def gridBit : Kind → ℕ
  | corpse => 0
  | creature => 1
  | dynamicObject => 2
  | gameObject => 3
  | player => 4

end Kind

def maskCorpse : ℕ := 0x01
def maskCreature : ℕ := 0x02
def maskGameobject : ℕ := 0x08
def maskPlayer : ℕ := 0x10
def maskAll : ℕ := 0x1F

abbrev Object := ℕ

inductive QuestStatus where
  | none | complete | incomplete | failed | rewarded
deriving DecidableEq, Inhabited

structure InstanceScript where
  GetData : UInt32 → UInt32
  GetData64 : UInt32 → UInt64
  GetBossState : UInt32 → UInt32

/-- The answers of the objects, of their maps and of the managers that `Meets` asks. -/
structure World where
  kind : Object → Kind
  (isAlliance notAttackable IsAlive IsInWater : Object → Bool)
  (HasItemOrGemWithIdEquipped HasAchieved HasSkill GetQuestRewardStatus IsQuestRewarded : Object → UInt32 → Bool)
  (SatisfyQuestExclusiveGroup HasSpell HasTitle HasUnitState HasAuraType : Object → UInt32 → Bool)
  (HasAuraEffect nearGameObject : Object → UInt32 → UInt32 → Bool)
  (HasItemCount nearCreature : Object → UInt32 → UInt32 → Bool → Bool)
  (IsInPartyWith IsInRaidWith IsOnVehicle : Object → Object → Bool)
  (IsActiveEvent IsRealmCompleted : UInt32 → Bool)
  (getGender getLevel : Object → UInt8)
  GetBaseSkillValue : Object → UInt32 → UInt16
  (GetZoneId GetMapId GetAreaId getClassMask getRaceMask drunkenState GetEntry GetDBTableGUIDLow : Object → UInt32)
  (GetHealth GetPhaseMask creatureType : Object → UInt32)
  (GetGUID GetOwnerGUID GetCreatorGUID : Object → UInt64)
  getWorldState : UInt32 → UInt64
  (GetHealthPct : Object → ℚ) (GetDistance : Object → Object → ℚ) (toFloat : UInt32 → ℚ)
  (GetRank : Object → UInt32 → Fin 8) (GetReactionTo : Object → Object → Fin 8) (GetSpawnMode : Object → Fin 4)
  GetQuestStatus : Object → UInt32 → QuestStatus
  instanceScript : Object → Option InstanceScript
deriving Inhabited

namespace World

def isPlayer (w : World) (o : Object) : Bool := decide (w.kind o = .player)

def isCreature (w : World) (o : Object) : Bool := decide (w.kind o = .creature)

def isUnit (w : World) (o : Object) : Bool := w.isCreature o || w.isPlayer o

end World

/-- What the loader looks up, and `Meets` again. -/
structure Data where
  (GetSpellInfo GetItemTemplate GetQuestTemplate GetCreatureTemplate GetGameObjectTemplate : UInt32 → Bool)
  (faction skillLine validEvent achievement map charTitles : UInt32 → Bool)
  (areaZone GetCreatureData GetGOData : UInt32 → Option UInt32)
  GetConfigMaxSkillValue : UInt32
  getWorldState : UInt32 → UInt64
deriving Inhabited

/-! ### Meets -/

section Compare
variable {α : Type} [LT α] [DecidableEq α] [DecidableLT α]

def CompareValues (type : UInt32) (val1 val2 : α) : Except Stop Bool :=
  match type.toNat with
  | 0 => .ok (decide (val1 = val2))
  | 1 => .ok (decide (val2 < val1))
  | 2 => .ok (decide (val1 < val2))
  | 3 => .ok (decide (val2 < val1) || decide (val1 = val2))
  | 4 => .ok (decide (val1 < val2) || decide (val1 = val2))
  | _ => .error .assertion

end Compare

abbrev Targets := Fin 3 → Option Object

/-- `mConditionTargets[i]` -/
def target (targets : Targets) (i : ℕ) : Except Stop (Option Object) :=
  if h : i < 3 then .ok (targets ⟨i, h⟩) else .error .invalidRead

namespace Condition
variable (cond : Condition) (data : Data) (w : World) (targets : Targets)

def isLoaded : Bool := decide (cond.ConditionType ≠ .none) || decide (cond.ReferenceId ≠ 0)

def GetMaxAvailableConditionTargets : ℕ :=
  match cond.SourceType with
  | .smartEvent => 3
  | .spell | .spellImplicitTarget | .creatureTemplateVehicle | .vehicleSpell | .spellClickEvent | .gossipMenu
  | .gossipMenuOption | .npcVendor | .spellProc => 2
  | .other _ => 1

def meetsInstanceInfo (object : Object) : Bool :=
  match w.instanceScript object with
  | none => false
  | some script =>
    match cond.ConditionValue3.toNat with
    | 0 => decide (script.GetData cond.ConditionValue1 = cond.ConditionValue2)
    | 1 => decide ((script.GetData64 cond.ConditionValue1).toNat = cond.ConditionValue2.toNat)
    | 2 => decide (script.GetBossState cond.ConditionValue1 = cond.ConditionValue2)
    | _ => false

def meetsObjectEntryGuid (object : Object) : Bool :=
  if cond.ConditionValue3 = 1 ∧ w.isUnit object = true ∧ w.notAttackable object = true then false
  else if (w.kind object).typeId = cond.ConditionValue1.toNat then
    (decide (cond.ConditionValue2 = 0) || decide (w.GetEntry object = cond.ConditionValue2)) &&
      if cond.ConditionValue3 ≤ 1 then true
      else
        match w.kind object with
        | .creature | .gameObject => decide (w.GetDBTableGUIDLow object = cond.ConditionValue3)
        | _ => true
  else false

def meetsRelation (unit toUnit : Object) : Bool :=
  match cond.ConditionValue2.toNat with
  | 0 => decide (unit = toUnit)
  | 1 => w.IsInPartyWith unit toUnit
  | 2 => w.IsInRaidWith unit toUnit
  | 3 => decide (w.GetOwnerGUID unit = w.GetGUID toUnit)
  | 4 => w.IsOnVehicle unit toUnit
  | 5 => decide (w.GetCreatorGUID unit = w.GetGUID toUnit)
  | _ => false

/-- The `switch` of `Meets`, for the object that the condition is about. -/
def test (object : Object) : Except Stop Bool :=
  let value1 := cond.ConditionValue1
  let value2 := cond.ConditionValue2
  let value3 := cond.ConditionValue3
  match cond.ConditionType with
  | .none => .ok true
  | .aura => .ok (w.isUnit object && w.HasAuraEffect object value1 value2)
  | .item =>
    if w.isPlayer object then
      if value2 = 0 then .error .assertion else .ok (w.HasItemCount object value1 value2 (decide (value3 ≠ 0)))
    else .ok false
  | .itemEquipped => .ok (w.isPlayer object && w.HasItemOrGemWithIdEquipped object value1)
  | .zoneid => .ok (decide (w.GetZoneId object = value1))
  | .reputationRank =>
    .ok (w.isPlayer object && data.faction value1 && value2.toNat.testBit (w.GetRank object value1).val)
  | .achievement => .ok (w.isPlayer object && w.HasAchieved object value1)
  | .team => .ok (w.isPlayer object && decide ((if w.isAlliance object then 469 else 67) = value1))
  | .playerClass => .ok (w.isUnit object && decide (w.getClassMask object &&& value1 ≠ 0))
  | .race => .ok (w.isUnit object && decide (w.getRaceMask object &&& value1 ≠ 0))
  | .gender => .ok (w.isPlayer object && decide ((w.getGender object).toNat = value1.toNat))
  | .skill =>
    .ok (w.isPlayer object && w.HasSkill object value1 && decide (value2.toNat ≤ (w.GetBaseSkillValue object value1).toNat))
  | .questrewarded => .ok (w.isPlayer object && w.GetQuestRewardStatus object value1)
  | .questtaken => .ok (w.isPlayer object && decide (w.GetQuestStatus object value1 = .incomplete))
  | .questComplete =>
    .ok (w.isPlayer object && decide (w.GetQuestStatus object value1 = .complete) && !w.GetQuestRewardStatus object value1)
  | .questNone => .ok (w.isPlayer object && decide (w.GetQuestStatus object value1 = .none))
  | .questSatisfyExclusive =>
    if w.isPlayer object then
      if w.IsQuestRewarded object value1 then .ok false
      else if data.GetQuestTemplate value1 then .ok (w.SatisfyQuestExclusiveGroup object value1)
      else .error .invalidRead
    else .ok false
  | .activeEvent => .ok (w.IsActiveEvent value1)
  | .instanceInfo => .ok (cond.meetsInstanceInfo w object)
  | .mapid => .ok (decide (w.GetMapId object = value1))
  | .areaid => .ok (decide (w.GetAreaId object = value1))
  | .spell => .ok (w.isPlayer object && w.HasSpell object value1)
  | .level =>
    if w.isUnit object then CompareValues value2 (w.getLevel object).toNat value1.toNat else .ok false
  | .drunkenstate => .ok (w.isPlayer object && decide (value1 ≤ w.drunkenState object))
  | .nearCreature => .ok (w.nearCreature object value1 value2 (decide (value3 = 0)))
  | .nearGameobject => .ok (w.nearGameObject object value1 value2)
  | .objectEntryGuid => .ok (cond.meetsObjectEntryGuid w object)
  | .typeMask => .ok (decide ((w.kind object).typeMask &&& value1.toNat % 2 ^ 16 ≠ 0))
  | .relationTo =>
    (target targets value1.toNat).map fun toObject => toObject.any fun toObject =>
      w.isUnit toObject && w.isUnit object && cond.meetsRelation w object toObject
  | .reactionTo =>
    (target targets value1.toNat).map fun toObject => toObject.any fun toObject =>
      w.isUnit toObject && w.isUnit object && value2.toNat.testBit (w.GetReactionTo object toObject).val
  | .distanceTo =>
    (target targets value1.toNat).bind fun toObject =>
      match toObject with
      | none => .ok false
      | some toObject => CompareValues value3 (w.GetDistance object toObject) (w.toFloat value2)
  | .alive => .ok (w.isUnit object && w.IsAlive object)
  | .hpVal => if w.isUnit object then CompareValues value2 (w.GetHealth object).toNat value1.toNat else .ok false
  | .hpPct => if w.isUnit object then CompareValues value2 (w.GetHealthPct object) (w.toFloat value1) else .ok false
  | .worldState => .ok (decide (value2.toNat = (w.getWorldState value1).toNat))
  | .phasemask => .ok (decide (w.GetPhaseMask object &&& value1 ≠ 0))
  | .title => .ok (w.isPlayer object && w.HasTitle object value1)
  | .spawnmask => .ok (value1.toNat.testBit (w.GetSpawnMode object).val)
  | .unitState => .ok (w.isUnit object && w.HasUnitState object value1)
  | .creatureType => .ok (w.isCreature object && decide (w.creatureType object = value1))
  | .realmAchievement => .ok (data.achievement value1 && w.IsRealmCompleted value1)
  | .inWater => .ok (w.isUnit object && w.IsInWater object)
  | .hasAuraType => .ok (w.isUnit object && w.HasAuraType object value1)
  | .guildLevel | .other _ => .ok false

/-- An object that is missing meets no condition, a negated one included. -/
def Meets : Except Stop Bool :=
  if h : cond.ConditionTarget.toNat < 3 then
    match targets ⟨cond.ConditionTarget.toNat, h⟩ with
    | none => .ok false
    | some object => (cond.test data w targets object).map fun condMeets => condMeets ^^ cond.NegativeCondition
  else .error .assertion

/-! ### The mask of a condition -/

def objectEntryMask : ℕ :=
  match cond.ConditionValue1.toNat with
  | 3 => maskCreature
  | 4 => maskPlayer
  | 5 => maskGameobject
  | 7 => maskCorpse
  | _ => 0

def typeMaskMask : ℕ :=
  let value1 := cond.ConditionValue1.toNat
  (if value1 &&& 0x08 ≠ 0 then maskCreature ||| maskPlayer else 0) ||| (if value1 &&& 0x10 ≠ 0 then maskPlayer else 0) |||
    (if value1 &&& 0x20 ≠ 0 then maskGameobject else 0) ||| (if value1 &&& 0x80 ≠ 0 then maskCorpse else 0)

def GetSearcherTypeMaskForCondition : Except Stop ℕ :=
  if cond.NegativeCondition then .ok maskAll
  else
    match cond.ConditionType with
    | .none | .zoneid | .activeEvent | .instanceInfo | .mapid | .areaid | .nearCreature | .nearGameobject | .distanceTo
    | .worldState | .phasemask | .spawnmask | .realmAchievement => .ok maskAll
    | .aura | .playerClass | .race | .level | .relationTo | .reactionTo | .alive | .hpVal | .hpPct | .unitState
    | .inWater | .hasAuraType => .ok (maskCreature ||| maskPlayer)
    | .item | .itemEquipped | .reputationRank | .achievement | .team | .skill | .questrewarded | .questtaken
    | .questComplete | .questNone | .questSatisfyExclusive | .spell | .drunkenstate | .title | .gender | .guildLevel =>
      .ok maskPlayer
    | .creatureType => .ok maskCreature
    | .objectEntryGuid => .ok cond.objectEntryMask
    | .typeMask => .ok cond.typeMaskMask
    | .other _ => .error .assertion

/-! ### The check of the loader -/

def validObjectEntryGuid : Bool :=
  let value2 := cond.ConditionValue2
  let value3 := cond.ConditionValue3
  match cond.ConditionValue1.toNat with
  | 3 =>
    (decide (value2 = 0) || data.GetCreatureTemplate value2) &&
      (decide (value3 ≤ 1) || (data.GetCreatureData value3).any fun id => decide (value2 = 0) || decide (id = value2))
  | 5 =>
    (decide (value2 = 0) || data.GetGameObjectTemplate value2) &&
      (decide (value3 = 0) || (data.GetGOData value3).any fun id => decide (value2 = 0) || decide (id = value2))
  | 4 | 7 => true
  | _ => false

/-- `RELATION_TO`, `REACTION_TO` and `DISTANCE_TO` are about another target than the condition itself. -/
def validTarget : Bool :=
  decide (cond.ConditionValue1.toNat < cond.GetMaxAvailableConditionTargets) &&
    decide (cond.ConditionValue1.toNat ≠ cond.ConditionTarget.toNat)

def isConditionTypeValid : Bool :=
  let value1 := cond.ConditionValue1
  let value2 := cond.ConditionValue2
  let value3 := cond.ConditionValue3
  decide (cond.ConditionTarget.toNat < cond.GetMaxAvailableConditionTargets) &&
  match cond.ConditionType with
  | .none => false
  | .other n => decide (n < 53)
  | .aura => data.GetSpellInfo value1 && decide (value2 ≤ 2)
  | .item => data.GetItemTemplate value1 && decide (value2 ≠ 0)
  | .itemEquipped => data.GetItemTemplate value1
  | .zoneid => decide (data.areaZone value1 = some 0)
  | .reputationRank => data.faction value1
  | .team => decide (value1 = 469) || decide (value1 = 67)
  | .skill => data.skillLine value1 && decide (1 ≤ value2) && decide (value2 ≤ data.GetConfigMaxSkillValue)
  | .questrewarded | .questtaken | .questNone | .questComplete | .questSatisfyExclusive => data.GetQuestTemplate value1
  | .activeEvent => data.validEvent value1
  | .achievement | .realmAchievement => data.achievement value1
  | .playerClass => decide (value1 &&& 0x5FF ≠ 0)
  | .race => decide (value1 &&& 0x6FF ≠ 0)
  | .gender => decide (value1.toNat % 2 ^ 8 ≤ 1)
  | .mapid => data.map value1
  | .spell => data.GetSpellInfo value1
  | .level | .hpVal | .guildLevel => decide (value2 < 5)
  | .drunkenstate => decide (value1 ≤ 3) && decide (value2 = 0)
  | .nearCreature => data.GetCreatureTemplate value1
  | .nearGameobject => data.GetGameObjectTemplate value1
  | .objectEntryGuid => cond.validObjectEntryGuid data
  | .typeMask => decide (value1 ≠ 0) && decide (value1 &&& ~~~(0x08 ||| 0x10 ||| 0x20 ||| 0x80) = 0)
  | .relationTo => cond.validTarget && decide (value2 < 6)
  | .reactionTo => cond.validTarget && decide (value2 ≠ 0)
  | .distanceTo => cond.validTarget && decide (value3 < 5)
  | .hpPct => decide (value1 ≤ 100) && decide (value2 < 5)
  | .alive | .areaid | .instanceInfo | .phasemask | .inWater => true
  | .worldState => decide (data.getWorldState value1 ≠ 0)
  | .title => data.charTitles value1
  | .spawnmask => decide (value1 ≤ 15)
  | .unitState => decide (value1 &&& 0x3FF7FFBB ≠ 0)
  | .creatureType => decide (value1 ≠ 0) && decide (value1 ≤ 13)
  | .hasAuraType => decide (value1 ≠ 0) && decide (value1 < 317)

end Condition

end HysteriaCore.Conditions

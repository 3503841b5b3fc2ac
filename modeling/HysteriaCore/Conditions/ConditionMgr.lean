import HysteriaCore.Conditions.Condition
import HysteriaCore.Lib.Alternatives

/-!
# Lists of conditions and references

The rows of a list are conditions, or refer to a template of conditions. The loader takes a reference as it
is, apart from one of a template to itself.
-/

namespace HysteriaCore.Conditions
open Lib Lib.Alternatives

/-! ### The two readings of a list -/

def truth : Reading Bool Unit where
  top := true
  bot := false
  meet := (· && ·)
  join := (· || ·)
  dead := (!·)
  holds b _ := b = true
  holds_top _ := rfl
  not_holds_bot _ := Bool.false_ne_true
  holds_meet a b _ := Bool.and_eq_true_iff
  holds_join a b _ := Bool.or_eq_true_iff
  not_holds_dead := by
    intro a _ hdead ha
    rw [ha] at hdead
    exact Bool.noConfusion hdead

def masks : Reading ℕ Kind where
  top := maskAll
  bot := 0
  meet := (· &&& ·)
  join := (· ||| ·)
  dead m := decide (m = 0)
  holds m k := m.testBit k.gridBit = true
  holds_top k := by cases k <;> rfl
  not_holds_bot k := by simp
  holds_meet a b k := by simp
  holds_join a b k := by simp
  not_holds_dead := by
    intro m k hdead
    rw [of_decide_eq_true hdead]
    simp

def Condition.reference (cond : Condition) : Option ℕ := if cond.ReferenceId = 0 then none else some cond.ReferenceId

/-- `IsObjectMeetToConditionList`: rows that are not loaded are left out, and a reference to a template that
is not there leaves its group as it is. -/
def meeting (data : Data) (w : World) (targets : Targets) : Language Condition Bool Unit Stop where
  toReading := truth
  group cond := cond.ElseGroup.toNat
  counted := Condition.isLoaded
  check _ := .ok ()
  plain cond := cond.Meets data w targets
  reference := Condition.reference
  missing := .ok true
  blank := false

/-- `GetSearcherTypeMaskForConditionList`, with its two `ASSERT`s. -/
def searching : Language Condition ℕ Kind Stop where
  toReading := masks
  group cond := cond.ElseGroup.toNat
  counted _ := true
  check cond := if cond.isLoaded then .ok () else .error .assertion
  plain := Condition.GetSearcherTypeMaskForCondition
  reference := Condition.reference
  missing := .error .assertion
  blank := maskAll

/-- A template is there from its first condition on. -/
abbrev ConditionReferenceContainer := ℕ → List Condition

section Lists
variable (store : ConditionReferenceContainer) (data : Data) (w : World) (targets : Targets) (fuel : ℕ)

def IsObjectMeetToConditionList (conditions : List Condition) : Walk Stop Bool :=
  (meeting data w targets).run store fuel conditions

def GetSearcherTypeMaskForConditionList (conditions : List Condition) : Walk Stop ℕ :=
  searching.run store fuel conditions

/-- The disjunction over the groups of the conjunction of their rows, the references expanded. -/
def Met (conditions : List Condition) : Prop :=
  (meeting data w targets).Holds (fun id => rowsOf (store id)) () (rowsOf conditions)

/-- The same of the masks of the rows, for one type of objects. -/
def Searched (k : Kind) (conditions : List Condition) : Prop :=
  searching.Holds (fun id => rowsOf (store id)) k (rowsOf conditions)

end Lists

/-! ### The loader -/

/-- A row of the table `conditions`. -/
structure ConditionRow where
  SourceTypeOrReferenceId : Int32
  ElseGroup : UInt32
  ConditionTypeOrReference : Int32
  ConditionTarget : UInt8
  ConditionValue1 : UInt32
  ConditionValue2 : UInt32
  ConditionValue3 : UInt32
  NegativeCondition : UInt8

namespace ConditionRow
variable (data : Data) (row : ConditionRow)

def condition : Condition where
  SourceType :=
    if 0 ≤ row.SourceTypeOrReferenceId.toInt then .ofNat row.SourceTypeOrReferenceId.toInt.toNat else .other 0
  ElseGroup := row.ElseGroup
  ConditionType :=
    if 0 ≤ row.ConditionTypeOrReference.toInt then .ofNat row.ConditionTypeOrReference.toInt.toNat else .none
  ConditionValue1 := row.ConditionValue1
  ConditionValue2 := row.ConditionValue2
  ConditionValue3 := row.ConditionValue3
  ReferenceId := if row.ConditionTypeOrReference.toInt < 0 then row.ConditionTypeOrReference.toInt.natAbs else 0
  ConditionTarget := row.ConditionTarget
  NegativeCondition := decide (row.NegativeCondition ≠ 0)

/-- A row without a reference is checked; one with a reference is taken unless it refers to its own template. -/
def load : Option Condition :=
  if row.ConditionTypeOrReference.toInt < 0 then
    if row.ConditionTypeOrReference = row.SourceTypeOrReferenceId then none else some row.condition
  else if row.condition.isConditionTypeValid data then some row.condition
  else none

/-- What the row adds to the template `id`. -/
def template (id : ℕ) : Option Condition :=
  if row.SourceTypeOrReferenceId.toInt < 0 ∧ row.SourceTypeOrReferenceId.toInt.natAbs = id then row.load data else none

end ConditionRow

def loadRow (data : Data) (store : ConditionReferenceContainer) (row : ConditionRow) : ConditionReferenceContainer :=
  match row.load data with
  | none => store
  | some cond =>
    if row.SourceTypeOrReferenceId.toInt < 0 then
      let uRefId := row.SourceTypeOrReferenceId.toInt.natAbs
      Function.update store uRefId (store uRefId ++ [cond])
    else store

/-- The `ConditionReferenceStore` after `LoadConditions`. -/
def LoadConditions (data : Data) (rows : List ConditionRow) : ConditionReferenceContainer :=
  rows.foldl (loadRow data) fun _ => []

/-- Some references lead from a template back to it. -/
def CircularReferences (store : ConditionReferenceContainer) : Prop :=
  Circular Condition.reference fun id => rowsOf (store id)

/-- What the loader lets into a list. -/
def Valid (data : Data) (cond : Condition) : Prop := cond.ReferenceId ≠ 0 ∨ cond.isConditionTypeValid data = true

end HysteriaCore.Conditions

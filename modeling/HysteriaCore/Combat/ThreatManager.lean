import HysteriaCore.Lib.Runs
import Mathlib.Algebra.Order.Ring.Rat
import Mathlib.Data.List.Sort

/-!
# The threat lists of a creature

A hating creature has a list of references to the units that it can fight, and one of references to
the units that are out of its reach. A reference knows on which list it is.
-/

namespace HysteriaCore.Combat
open Lib

structure HostileReference where
  iUnitGuid : ℕ
  iThreat : ℚ
  iTempThreatModifier : ℚ
  iOnline : Bool
  isValid : Bool

structure Surroundings where
  /-- the living owner of the unit, the owner's owner and so on, as far as threat can be added to them -/
  owners : ℕ → List ℕ
  found : ℕ → Bool
  accessible : ℕ → Bool
  isGameMaster : ℕ → Bool
  /-- who takes how many percent of the threat, and whether threat can be added to it -/
  redirect : ℕ → Option (ℕ × ℚ × Bool)

structure Sight where
  acceptable : ℕ → Bool
  /-- immune to the damage of the creature, or under an aura that damage breaks -/
  immune : ℕ → Bool
  ignored : ℕ → Bool
  inMeleeRange : ℕ → Bool

/-- A delete, with the lists as they are when it is carried out -/
structure Deletion where
  ref : ℕ
  online : List ℕ
  offline : List ℕ
  byClearing : Bool

structure ThreatManager where
  ref : ℕ → HostileReference
  /-- the address of the next reference that is made -/
  nextRef : ℕ
  online : List ℕ
  offline : List ℕ
  iDirty : Bool
  iCurrentVictim : Option ℕ
  /-- the deletes so far; not data of the server -/
  deleted : List Deletion

namespace ThreatManager
variable (env : Surroundings) (m : ThreatManager)

def threat (p : ℕ) : ℚ := (m.ref p).iThreat

def setRef (p : ℕ) (r : HostileReference) : ThreatManager := { m with ref := Function.update m.ref p r }

@[simp] theorem setRef_self (p : ℕ) (r : HostileReference) : (m.setRef p r).ref p = r := by
  simp only [setRef, Function.update_self]

theorem setRef_of_ne {p q : ℕ} (h : q ≠ p) (r : HostileReference) : (m.setRef p r).ref q = m.ref q := by
  simp only [setRef, Function.update_of_ne h]

def getReferenceByTarget (list : List ℕ) (victim : ℕ) : Option ℕ :=
  list.find? fun p => decide ((m.ref p).iUnitGuid = victim)

/-! ### Events -/

def Raises (p : ℕ) (modThreat : ℚ) : Prop :=
  (m.iCurrentVictim = some p ∧ modThreat < 0) ∨ (m.iCurrentVictim ≠ some p ∧ 0 < modThreat)

instance (p : ℕ) (modThreat : ℚ) : Decidable (m.Raises p modThreat) := inferInstanceAs (Decidable (_ ∨ _))

def Exceeds (threat : ℚ) : Prop := ∃ v ∈ m.iCurrentVictim, 11 / 10 * m.threat v < threat

instance (threat : ℚ) : Decidable (m.Exceeds threat) :=
  match h : m.iCurrentVictim with
  | none => isFalse fun ⟨v, hv, _⟩ => by simp [h] at hv
  | some v => decidable_of_iff (11 / 10 * m.threat v < threat) (by simp [Exceeds, h])

def threatChange (p : ℕ) (modThreat : ℚ) : ThreatManager :=
  { m with iDirty := m.iDirty || decide (m.Raises p modThreat) }

def dropVictim (p : ℕ) : ThreatManager :=
  { m with
    iCurrentVictim := m.iCurrentVictim.filter fun v => decide (v ≠ p)
    iDirty := m.iDirty || decide (m.iCurrentVictim = some p) }

def wentOffline (p : ℕ) : ThreatManager :=
  let m := m.dropVictim p
  { m with online := m.online.filter (fun q => decide (q ≠ p)), offline := m.offline ++ [p] }

def wentOnline (p : ℕ) : ThreatManager :=
  { m with
    iDirty := m.iDirty || decide (m.Exceeds (m.threat p))
    online := m.online ++ [p]
    offline := m.offline.filter fun q => decide (q ≠ p) }

def removeFromList (p : ℕ) : ThreatManager :=
  let m := m.dropVictim p
  if (m.ref p).iOnline then { m with online := m.online.filter fun q => decide (q ≠ p) }
  else { m with offline := m.offline.filter fun q => decide (q ≠ p) }

/-! ### References -/

def setOnlineOfflineState (p : ℕ) (isOnline : Bool) : ThreatManager :=
  if (m.ref p).iOnline = isOnline then m
  else
    let m := m.setRef p { m.ref p with iOnline := isOnline }
    if isOnline then m.wentOnline p else m.wentOffline p

/-- `updateOnlineStatus`, which links a reference again when it finds the unit -/
def updateOnlineStatus (p : ℕ) : ThreatManager :=
  let isValid := (m.ref p).isValid || env.found (m.ref p).iUnitGuid
  (m.setRef p { m.ref p with isValid := isValid }).setOnlineOfflineState p
    (isValid && env.accessible (m.ref p).iUnitGuid)

def addOwnThreat (p : ℕ) (modThreat : ℚ) : ThreatManager :=
  let m := m.setRef p { m.ref p with iThreat := m.threat p + modThreat }
  let m := if (m.ref p).iOnline then m else m.updateOnlineStatus env p
  if modThreat ≠ 0 then m.threatChange p modThreat else m

def create (victim : ℕ) : ThreatManager :=
  { m with
    ref := Function.update m.ref m.nextRef ⟨victim, 0, 0, true, true⟩
    nextRef := m.nextRef + 1
    online := m.online ++ [m.nextRef] }

def find (victim : ℕ) : Option ℕ :=
  (m.getReferenceByTarget m.online victim).or (m.getReferenceByTarget m.offline victim)

/-- `_addThreat`, where `add` adds the threat to the reference: a game master is offline at once. -/
def withReference (victim : ℕ) (add : ThreatManager → ℕ → ThreatManager) : ThreatManager :=
  match m.find victim with
  | some p => add m p
  | none =>
    let p := m.nextRef
    let m := add (m.create victim) p
    if env.isGameMaster victim then m.setOnlineOfflineState p false else m

def addThreat : List ℕ → ThreatManager → ℕ → ℚ → ThreatManager
  | [], m, p, modThreat => m.addOwnThreat env p modThreat
  | owner :: owners, m, p, modThreat =>
    let m := m.addOwnThreat env p modThreat
    if (m.ref p).isValid = true ∧ 0 ≤ modThreat then
      m.withReference env owner fun m q => addThreat owners m q 0
    else m

def addRefThreat (p : ℕ) (modThreat : ℚ) : ThreatManager :=
  addThreat env (env.owners (m.ref p).iUnitGuid) m p modThreat

def addUnitThreat (victim : ℕ) (threat : ℚ) : ThreatManager :=
  m.withReference env victim fun m p => addThreat env (env.owners victim) m p threat

def redirected (victim : ℕ) (threat : ℚ) : ℚ :=
  match env.redirect victim with
  | some (_, percent, _) => if 0 < threat ∧ percent ≠ 0 then threat * percent / 100 else 0
  | none => 0

def doAddThreat (victim : ℕ) (threat : ℚ) : ThreatManager :=
  match env.redirect victim with
  | some (redirectTarget, percent, isValidProcess) =>
    let m := if (0 < threat ∧ percent ≠ 0) ∧ isValidProcess = true
      then m.addUnitThreat env redirectTarget (redirected env victim threat) else m
    m.addUnitThreat env victim (threat - redirected env victim threat)
  | none => m.addUnitThreat env victim threat

def addThreatPercent (p : ℕ) (percent : ℤ) : ThreatManager :=
  if m.threat p ≤ 0 then m else m.addRefThreat env p (m.threat p * percent / 100)

def addTempThreat (p : ℕ) (threat : ℚ) : ThreatManager :=
  let m := m.setRef p { m.ref p with iTempThreatModifier := threat }
  if threat ≠ 0 then m.addRefThreat env p threat else m

def resetTempThreat (p : ℕ) : ThreatManager :=
  if (m.ref p).iTempThreatModifier ≠ 0 then
    let m := m.addRefThreat env p (-(m.ref p).iTempThreatModifier)
    m.setRef p { m.ref p with iTempThreatModifier := 0 }
  else m

def removeReference (p : ℕ) : ThreatManager :=
  let m := m.setOnlineOfflineState p false
  let m := m.setRef p { m.ref p with isValid := false }
  m.removeFromList p

/-! ### Operations -/

def modifyThreatPercent (victim : ℕ) (percent : ℤ) : ThreatManager :=
  match m.getReferenceByTarget m.online victim with
  | some p => m.addThreatPercent env p percent
  | none => m

def tauntApply (taunter : ℕ) : ThreatManager :=
  match m.iCurrentVictim, m.getReferenceByTarget m.online taunter with
  | some v, some p =>
    if m.threat p < m.threat v ∧ (m.ref p).iTempThreatModifier = 0
    then m.addTempThreat env p (m.threat v - m.threat p) else m
  | _, _ => m

def tauntFadeOut (taunter : ℕ) : ThreatManager :=
  match m.getReferenceByTarget m.online taunter with
  | some p => m.resetTempThreat env p
  | none => m

/-- The loop of `resetAllAggro` from a position on; the list may grow at its end meanwhile. -/
def resetFrom : ℕ → ℕ → ThreatManager → Option ThreatManager
  | 0, _, _ => none
  | fuel + 1, i, m =>
    match m.online[i]? with
    | none => some m
    | some p => resetFrom fuel (i + 1) (m.addRefThreat env p (0 - m.threat p))

def resetAllAggro (fuel : ℕ) : Option ThreatManager :=
  if m.online = [] then some m
  else (resetFrom env fuel 0 m).map fun m => { m with iDirty := true }

def linked (victim : ℕ) : Option ℕ :=
  (m.online ++ m.offline).find? fun p => decide ((m.ref p).iUnitGuid = victim) && (m.ref p).isValid

def deleteReference (victim : ℕ) : ThreatManager :=
  match m.linked victim with
  | some p =>
    let m := m.removeReference p
    { m with deleted := m.deleted ++ [⟨p, m.online, m.offline, false⟩] }
  | none => m

/-- Each container deletes what is on its list and empties the list afterwards. -/
def clearReferences : ThreatManager :=
  { m with
    online := []
    offline := []
    iCurrentVictim := none
    deleted := m.deleted ++ m.online.map (⟨·, m.online, m.offline, true⟩) ++
      m.offline.map (⟨·, [], m.offline, true⟩) }

def update : ThreatManager :=
  { m with
    online := if m.iDirty then m.online.insertionSort (fun p q => m.threat q ≤ m.threat p) else m.online
    iDirty := false }

inductive Scan where
  | found (p : ℕ)
  | restart
  | none

/-- The loop of `selectNextVictim`, which starts again when it has only found second choices. -/
def scan (sight : Sight) (current : Option ℕ) (noPriorityTargetFound : Bool) : List ℕ → Scan
  | [] => .none
  | p :: ps =>
    let target := (m.ref p).iUnitGuid
    if noPriorityTargetFound = false ∧ (sight.immune target || sight.ignored target) = true then
      if ps = [] then .restart else scan sight current noPriorityTargetFound ps
    else if sight.acceptable target then
      match current with
      | none => .found p
      | some v =>
        if v = p then .found p
        else if 13 / 10 * m.threat v < m.threat p then .found p
        else if 11 / 10 * m.threat v < m.threat p then
          if sight.inMeleeRange target then .found p else scan sight current noPriorityTargetFound ps
        else .found v
    else scan sight current noPriorityTargetFound ps

def selectNextVictim (sight : Sight) : Option ℕ :=
  let current := m.iCurrentVictim.filter fun v =>
    sight.acceptable (m.ref v).iUnitGuid && !sight.immune (m.ref v).iUnitGuid
  match m.scan sight current false m.online with
  | .found p => some p
  | .none => none
  | .restart =>
    match m.scan sight current true m.online with
    | .found p => some p
    | _ => none

def getHostilTarget (sight : Sight) : ThreatManager :=
  { m.update with iCurrentVictim := m.update.selectNextVictim sight }

end ThreatManager

inductive Event where
  | doAddThreat (env : Surroundings) (victim : ℕ) (threat : ℚ)
  | modifyThreatPercent (env : Surroundings) (victim : ℕ) (percent : ℤ)
  | tauntApply (env : Surroundings) (taunter : ℕ)
  | tauntFadeOut (env : Surroundings) (taunter : ℕ)
  | resetAllAggro (env : Surroundings) (fuel : ℕ)
  | addTempThreat (env : Surroundings) (victim : ℕ) (threat : ℚ)
  | resetTempThreat (env : Surroundings) (victim : ℕ)
  | addThreatPercent (env : Surroundings) (victim : ℕ) (percent : ℤ)
  | setOnlineOfflineState (victim : ℕ) (isOnline : Bool)
  | updateOnlineStatus (env : Surroundings) (victim : ℕ)
  | deleteReference (victim : ℕ)
  | clearReferences
  /-- a taunt: the reference to the unit, if it is online, is the current victim -/
  | setCurrentVictim (victim : ℕ)
  | getHostilTarget (sight : Sight)

namespace ThreatManager

def atLinked (m : ThreatManager) (victim : ℕ) (op : ℕ → ThreatManager) : ThreatManager :=
  match m.linked victim with
  | some p => op p
  | none => m

def step (m : ThreatManager) : Event → Option ThreatManager
  | .doAddThreat env victim threat => some (m.doAddThreat env victim threat)
  | .modifyThreatPercent env victim percent => some (m.modifyThreatPercent env victim percent)
  | .tauntApply env taunter => some (m.tauntApply env taunter)
  | .tauntFadeOut env taunter => some (m.tauntFadeOut env taunter)
  | .resetAllAggro env fuel => m.resetAllAggro env fuel
  | .addTempThreat env victim threat => some (m.atLinked victim fun p =>
      if (m.ref p).iTempThreatModifier = 0 then m.addTempThreat env p threat else m)
  | .resetTempThreat env victim => some (m.atLinked victim fun p => m.resetTempThreat env p)
  | .addThreatPercent env victim percent => some (m.atLinked victim fun p => m.addThreatPercent env p percent)
  | .setOnlineOfflineState victim isOnline => some (m.atLinked victim fun p => m.setOnlineOfflineState p isOnline)
  | .updateOnlineStatus env victim => some (m.atLinked victim fun p => m.updateOnlineStatus env p)
  | .deleteReference victim => some (m.deleteReference victim)
  | .clearReferences => some m.clearReferences
  | .setCurrentVictim victim =>
    match m.getReferenceByTarget m.online victim with
    | some p => some { m with iCurrentVictim := some p }
    | none => some m
  | .getHostilTarget sight => some (m.getHostilTarget sight)

def initial : ThreatManager := ⟨fun _ => ⟨0, 0, 0, false, false⟩, 0, [], [], false, none, []⟩

end ThreatManager

end HysteriaCore.Combat

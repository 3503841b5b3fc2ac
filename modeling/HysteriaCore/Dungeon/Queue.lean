import HysteriaCore.Dungeon.Guids
import HysteriaCore.Lib.KeyedList
import HysteriaCore.Lib.Runs
import Mathlib.Data.Finset.Sort

/-!
# The dungeon finder's queue

`LFGQueue` keeps the queued players and groups in `QueueDataStore` and, in
`CompatibleList`, the combinations of them that could still become a group of
five. `FindGroups` takes one new guid and tries to extend every combination by
it; new combinations wait in `CompatibleTempList` until the walk is over.
-/

namespace HysteriaCore.Dungeon
open Lib

def MAXGROUPSIZE : ℕ := 5
def HOUR : ℕ := 3600
def LFG_QUEUEUPDATE_INTERVAL : ℕ := 8000

inductive LfgCompatibility where
  | pending
  | tooMuchPlayers
  | multipleLfgGroups
  | hasIgnores
  | noRoles
  | noDungeons
  | withLessPlayers
  | isMatch
  deriving DecidableEq, Repr

/-- One entry of `QueueDataStore`, with its key. A role map has each player once, in order. -/
structure LfgQueueData where
  guid : ℕ
  joinTime : ℕ
  lastRefreshTime : ℕ
  dungeons : Finset ℕ
  roles : RoleRows
  sorted : roles.Pairwise (·.1 < ·.1)
  bestCompatible : Lfg5Guids

structure LfgProposalPlayer where
  role : Role
  group : ℕ
  accept : Bool
  deriving DecidableEq, Repr

structure LfgProposal where
  dungeonId : ℕ
  group : ℕ
  leader : ℕ
  isNew : Bool
  queues : Lfg5Guids
  players : List (ℕ × LfgProposalPlayer)
  deriving DecidableEq, Repr

/-- What the queue asks `LFGMgr` and the clock, and the outcomes of `urand`. -/
structure World where
  isGroupGuid : ℕ → Bool
  isLfgGroup : ℕ → Bool
  hasIgnore : ℕ → ℕ → Bool
  isQueued : ℕ → Bool
  ownQueue : ℕ → Bool
  wasInDungeon : ℕ → Bool
  groupOf : ℕ → ℕ
  now : ℕ
  roll : ℕ
  coin : ℕ → Bool

structure LFGQueue where
  queueStatusTimer : ℕ
  queueDataStore : KeyedList LfgQueueData.guid
  compatibleList : List Lfg5Guids
  compatibleTempList : List Lfg5Guids
  newToQueueStore : List ℕ
  restoredAfterProposal : List ℕ

namespace LFGQueue

def initial : LFGQueue := ⟨0, .empty, [], [], [], []⟩

def addToNewQueue (q : LFGQueue) (guid : ℕ) (front : Bool) : LFGQueue :=
  if front then
    { q with
      restoredAfterProposal := q.restoredAfterProposal ++ [guid]
      newToQueueStore := guid :: q.newToQueueStore }
  else { q with newToQueueStore := q.newToQueueStore ++ [guid] }

def addToQueue (q : LFGQueue) (guid : ℕ) (failedProposal : Bool) : LFGQueue :=
  match q.queueDataStore.find? guid with
  | none => q
  | some _ => q.addToNewQueue guid failedProposal

def removeFromNewQueue (q : LFGQueue) (guid : ℕ) : LFGQueue :=
  { q with
    newToQueueStore := q.newToQueueStore.filter (· ≠ guid)
    restoredAfterProposal := q.restoredAfterProposal.filter (· ≠ guid) }

def removeFromCompatibles (q : LFGQueue) (guid : ℕ) : LFGQueue :=
  { q with
    compatibleList := q.compatibleList.map fun e => if e.hasGuid guid then e.clear else e
    compatibleTempList := q.compatibleTempList.filter fun e => !e.hasGuid guid }

def forgetBest (guid : ℕ) (d : LfgQueueData) : LfgQueueData :=
  if d.guid ≠ guid ∧ d.bestCompatible.hasGuid guid = true then
    { d with bestCompatible := d.bestCompatible.clear }
  else d

theorem forgetBest_guid (guid : ℕ) (d : LfgQueueData) : (forgetBest guid d).guid = d.guid := by
  rw [forgetBest]
  split <;> rfl

def removeFromQueue (q : LFGQueue) (guid : ℕ) (keepData : Bool) : LFGQueue :=
  let q := (q.removeFromNewQueue guid).removeFromCompatibles guid
  let store := q.queueDataStore.mapRows (forgetBest guid) (forgetBest_guid guid)
  { q with queueDataStore := if keepData then store else store.erase guid }

def addQueueData (q : LFGQueue) (guid joinTime : ℕ) (dungeons : Finset ℕ) (roles : RoleRows)
    (sorted : roles.Pairwise (·.1 < ·.1)) : LFGQueue :=
  let d : LfgQueueData := ⟨guid, joinTime, joinTime, dungeons, roles, sorted, .none5⟩
  addToQueue { q with queueDataStore := q.queueDataStore.put d } guid false

def updateBest (key : Lfg5Guids) (d : LfgQueueData) : LfgQueueData :=
  if key.size ≤ d.bestCompatible.size then d else { d with bestCompatible := key }

theorem updateBest_guid (key : Lfg5Guids) (d : LfgQueueData) : (updateBest key d).guid = d.guid := by
  rw [updateBest]
  split <;> rfl

def updateBestCompatibleInQueue (q : LFGQueue) (guid : ℕ) (key : Lfg5Guids) : LFGQueue :=
  { q with queueDataStore := q.queueDataStore.adjust guid (updateBest key) (updateBest_guid key) }

/-! ### CheckCompatibility -/

structure Found where
  mask : ℕ
  count : ℕ

structure Checked where
  compatibility : LfgCompatibility
  queue : LFGQueue
  found : Found
  proposal : Option LfgProposal

structure Scan where
  numPlayers : ℕ
  numLfgGroups : ℕ
  group : ℕ
  proposalGroups : List (ℕ × ℕ)

def Scan.add (w : World) (s : Scan) (d : LfgQueueData) : Scan :=
  let players := d.roles.map fun p => (p.1, if w.isGroupGuid d.guid then d.guid else 0)
  { numPlayers := s.numPlayers + d.roles.length
    numLfgGroups := if w.isLfgGroup d.guid then s.numLfgGroups + 1 else s.numLfgGroups
    group := if w.isLfgGroup d.guid ∧ s.numLfgGroups = 0 then d.guid else s.group
    proposalGroups := players ++ s.proposalGroups }

/-- The first loop: a guid that is not queued, or the counts. No entry has more than
`MAXGROUPSIZE` players, so that the `uint8` sum stays small. -/
def scanQueues (w : World) (q : LFGQueue) : List ℕ → Scan → ℕ ⊕ Scan
  | [], s => .inr s
  | guid :: rest, s =>
    if s.numLfgGroups < 2 ∧ s.numPlayers ≤ MAXGROUPSIZE then
      match q.queueDataStore.find? guid with
      | none => .inl guid
      | some d => scanQueues w q rest (s.add w d)
    else .inr s

def insertRow (p : ℕ × Role) (roles : RoleRows) : RoleRows :=
  roles.orderedInsert (fun a b => a.1 ≤ b.1) p

def joinEntry (w : World) : RoleRows → RoleRows → RoleRows
  | [], proposalRoles => proposalRoles
  | p :: rest, proposalRoles =>
    if proposalRoles.any fun x => p.1 = x.1 ∨ w.hasIgnore p.1 x.1 = true then proposalRoles
    else joinEntry w rest (insertRow p proposalRoles)

def rolesOf (q : LFGQueue) (guid : ℕ) : RoleRows := (q.queueDataStore.find? guid).elim [] (·.roles)

def dungeonsOf (q : LFGQueue) (guid : ℕ) : Finset ℕ :=
  (q.queueDataStore.find? guid).elim ∅ (·.dungeons)

def joinRoles (w : World) (q : LFGQueue) (guids : List ℕ) : RoleRows :=
  guids.foldl (fun proposalRoles guid => joinEntry w (q.rolesOf guid) proposalRoles) []

def Found.mark (f : Found) (code : ℕ) : Option ℕ :=
  if f.mask.testBit (code - 1) then
    if f.mask.testBit (16 + code - 1) then
      if f.mask.testBit (32 + code - 1) then
        if f.mask.testBit (48 + code - 1) then
          if 10 ≤ f.count then none else some 0
        else some (1 <<< (48 + code - 1))
      else some (1 <<< (32 + code - 1))
    else some (1 <<< (16 + code - 1))
  else some (1 <<< (code - 1))

def Found.markAll (f : Found) (code : ℕ) : Found :=
  if code ≠ 0 ∧ code ≤ 15 then
    { f with mask := f.mask ||| 1 <<< (code - 1) ||| 1 <<< (16 + code - 1) ||| 1 <<< (32 + code - 1) |||
        1 <<< (48 + code - 1) }
  else f

def commonDungeons (q : LFGQueue) : List ℕ → Finset ℕ
  | [] => ∅
  | guid :: rest => rest.foldl (fun common g => common ∩ q.dungeonsOf g) (q.dungeonsOf guid)

def selectRandom (roll : ℕ) (dungeons : Finset ℕ) : ℕ :=
  (dungeons.sort (· ≤ ·)).getD (roll % dungeons.card) 0

def addToCompatibles (q : LFGQueue) (key : Lfg5Guids) : LFGQueue :=
  { q with compatibleTempList := q.compatibleTempList ++ [key] }

def clearBest (d : LfgQueueData) : LfgQueueData :=
  { d with bestCompatible := d.bestCompatible.clear }

def addSingle (q : LFGQueue) (guid : ℕ) (strGuids : Lfg5Guids) (found : Found) : Checked :=
  let result := checkGroupRoles (q.rolesOf guid)
  let q := { q with queueDataStore := q.queueDataStore.adjust guid clearBest fun _ => rfl }
  ⟨.withLessPlayers, q.addToCompatibles (strGuids.addRoles result.2), found.markAll result.1, none⟩

/-- `if (!itr->second.bestCompatible.empty()) UpdateBestCompatibleInQueue(itr, strGuids)`. -/
def refreshBest (key : Lfg5Guids) (d : LfgQueueData) : LfgQueueData :=
  if d.bestCompatible.empty = true then d else updateBest key d

theorem refreshBest_guid (key : Lfg5Guids) (d : LfgQueueData) : (refreshBest key d).guid = d.guid := by
  rw [refreshBest]
  split
  · rfl
  · exact updateBest_guid key d

def addLess (q : LFGQueue) (guids : List ℕ) (strGuids : Lfg5Guids) (proposalRoles : RoleRows)
    (found : Found) (mark : ℕ) : Checked :=
  let key := strGuids.addRoles proposalRoles
  let q := guids.foldl (fun q guid =>
    { q with queueDataStore :=
        q.queueDataStore.adjust guid (refreshBest key) (refreshBest_guid key) }) q
  ⟨.withLessPlayers, q.addToCompatibles key, ⟨found.mask ||| mark, found.count + 1⟩, none⟩

/-- `LFGMgr::AllQueued`: whoever is not in state queued is removed from his queue. -/
def allQueued (w : World) (guids : List ℕ) (q : LFGQueue) : LFGQueue × Bool :=
  (guids.foldl (fun q guid =>
    if w.isQueued guid ∨ ¬w.ownQueue guid then q else q.removeFromQueue guid false) q,
    guids.all w.isQueued)

def chooseLeader (w : World) (best : Bool × ℕ) (p : ℕ × Role) : Bool × ℕ :=
  if p.2 &&& PLAYER_ROLE_LEADER ≠ 0 then
    (true, if !best.1 || best.2 = 0 || w.coin p.1 then p.1 else best.2)
  else if !best.1 && (best.2 = 0 || w.coin p.1) then (best.1, p.1)
  else best

def propose (w : World) (q : LFGQueue) (check strGuids : Lfg5Guids) (scan : Scan)
    (proposalDungeons : Finset ℕ) (proposalRoles : RoleRows) (found : Found) : Checked :=
  let isNew := decide (scan.numLfgGroups ≠ 1) || !w.wasInDungeon check.front
  let asked := allQueued w check.guids q
  if asked.2 = false then ⟨.pending, asked.1, found, none⟩
  else
    let player := fun p : ℕ × Role =>
      let group := (scan.proposalGroups.lookup p.1).getD 0
      (p.1, LfgProposalPlayer.mk p.2 group (!isNew && group ≠ 0 && group = scan.group))
    let proposal : LfgProposal :=
      { dungeonId := selectRandom w.roll proposalDungeons
        group := scan.group
        leader := (proposalRoles.foldl (chooseLeader w) (false, 0)).2
        isNew := isNew
        queues := strGuids
        players := proposalRoles.map player }
    let q := strGuids.guids.foldl (fun q guid => q.removeFromQueue guid true) asked.1
    ⟨.isMatch, q, found, some proposal⟩

def checkSeveral (w : World) (q : LFGQueue) (check strGuids : Lfg5Guids) (scan : Scan)
    (found : Found) : Checked :=
  let proposalRoles := joinRoles w q check.guids
  if scan.numPlayers ≠ proposalRoles.length then ⟨.hasIgnores, q, found, none⟩
  else
    let result := checkGroupRoles proposalRoles
    if result.1 = 0 ∨ 15 < result.1 then ⟨.noRoles, q, found, none⟩
    else
      match found.mark result.1 with
      | none => ⟨.noRoles, q, found, none⟩
      | some mark =>
        let proposalDungeons := q.commonDungeons check.guids
        if proposalDungeons = ∅ then ⟨.noDungeons, q, found, none⟩
        else if scan.numPlayers ≠ MAXGROUPSIZE then
          addLess q check.guids strGuids result.2 found mark
        else propose w q check strGuids scan proposalDungeons result.2 found

def checkOne (w : World) (q : LFGQueue) (check strGuids : Lfg5Guids) (scan : Scan) (found : Found) :
    Checked :=
  let proposalRoles := (checkGroupRoles (q.rolesOf check.front)).2
  if scan.numPlayers ≠ MAXGROUPSIZE then addLess q check.guids strGuids proposalRoles found 0
  else propose w q check strGuids scan (q.dungeonsOf check.front) proposalRoles found

/-- `CheckCompatibility`; `current` are the combinations with the new guid that exist already. -/
def checkCompatibility (w : World) (q : LFGQueue) (checkWith : Lfg5Guids) (newGuid : ℕ)
    (found : Found) (current : List (List ℕ)) : Checked :=
  let check := checkWith.noRoles.forceInsertFront newGuid
  let strGuids := checkWith.noRoles.insert newGuid
  if strGuids.raw ∈ current then ⟨.tooMuchPlayers, q, found, none⟩
  else
    match scanQueues w q check.guids ⟨0, 0, 0, []⟩ with
    | .inl guid => ⟨.pending, q.removeFromQueue guid false, found, none⟩
    | .inr scan =>
      if 1 < scan.numLfgGroups then ⟨.multipleLfgGroups, q, found, none⟩
      else if check.size = 1 ∧ scan.numPlayers < MAXGROUPSIZE then
        addSingle q check.front strGuids found
      else if MAXGROUPSIZE < scan.numPlayers then ⟨.tooMuchPlayers, q, found, none⟩
      else if 1 < check.size then checkSeveral w q check strGuids scan found
      else checkOne w q check strGuids scan found

/-! ### FindGroups -/

def FULL_MASK : ℕ := 0x3FFF3FFF3FFF3FFF

/-- The walk over `CompatibleList`: `remaining` entries from position `pos` on. -/
def findLoop (w : World) (newGuid : ℕ) (current : List (List ℕ)) (selfCompatibility : LfgCompatibility) :
    ℕ → ℕ → LFGQueue → Found → Checked
  | 0, _, q, found => ⟨selfCompatibility, q, found, none⟩
  | remaining + 1, pos, q, found =>
    match q.compatibleList[pos]? with
    | none => ⟨selfCompatibility, q, found, none⟩
    | some e =>
      if e.empty = true then
        findLoop w newGuid current selfCompatibility remaining pos
          { q with compatibleList := q.compatibleList.eraseIdx pos } found
      else
        let r := checkCompatibility w q e newGuid found current
        if r.compatibility = .isMatch then r
        else if r.found.mask &&& FULL_MASK = FULL_MASK then
          ⟨selfCompatibility, r.queue, r.found, none⟩
        else findLoop w newGuid current selfCompatibility remaining (pos + 1) r.queue r.found

def findNewGroups (w : World) (q : LFGQueue) (newGuid : ℕ) : Checked :=
  let current := (q.compatibleList.filter (·.hasGuid newGuid)).map (·.raw)
  if current = [] then
    let self := checkCompatibility w q .none5 newGuid ⟨0, 0⟩ current
    if self.compatibility ≠ .withLessPlayers then self
    else findLoop w newGuid current self.compatibility self.queue.compatibleList.length 0 self.queue
      self.found
  else findLoop w newGuid current .pending q.compatibleList.length 0 q ⟨0, 0⟩

def findGroups (w : World) (q : LFGQueue) : LFGQueue :=
  match q.newToQueueStore with
  | [] => q
  | newGuid :: _ =>
    let pushCompatiblesToFront := q.restoredAfterProposal.contains newGuid
    let q := (findNewGroups w (q.removeFromNewQueue newGuid) newGuid).queue
    { q with
      compatibleList := if pushCompatiblesToFront then q.compatibleTempList ++ q.compatibleList
        else q.compatibleList ++ q.compatibleTempList
      compatibleTempList := [] }

/-! ### UpdateQueueTimers -/

def leaveAllLfgQueues (w : World) (q : LFGQueue) (guid : ℕ) : LFGQueue :=
  if w.isGroupGuid guid then q.removeFromQueue guid false
  else
    let q := q.removeFromQueue guid false
    if w.groupOf guid ≠ 0 then q.removeFromQueue (w.groupOf guid) false else q

/-- `FindBestCompatibleInQueue`, with the number of compatibles. -/
def findBestCompatibleInQueue (q : LFGQueue) (guid : ℕ) : LFGQueue × ℕ :=
  let compatibles := q.compatibleList.filter (·.hasGuid guid)
  (compatibles.foldl (fun q e => q.updateBestCompatibleInQueue guid e) q, compatibles.length)

def eraseData (q : LFGQueue) (guid : ℕ) : LFGQueue :=
  { q with queueDataStore := q.queueDataStore.erase guid }

def stampRefresh (now : ℕ) (d : LfgQueueData) : LfgQueueData := { d with lastRefreshTime := now }

def refreshData (w : World) (q : LFGQueue) (guid : ℕ) (d : LfgQueueData) : LFGQueue :=
  if d.bestCompatible.empty = true then
    let found := q.findBestCompatibleInQueue guid
    let best := (found.1.queueDataStore.find? guid).elim 0 fun d =>
      (d.bestCompatible.roles.getD []).length
    if found.2 ≠ 0 ∧ d.lastRefreshTime + 60 ≤ w.now ∧ found.2 < (5 - best) * 25 then
      addToQueue { found.1 with queueDataStore :=
        found.1.queueDataStore.adjust guid (stampRefresh w.now) fun _ => rfl } guid false
    else found.1
  else q

def queued (q : LFGQueue) (guid : ℕ) : Bool := (q.queueDataStore.find? guid).isSome

/-- The walk over `QueueDataStore`, over the guids that were queued at first. When an expired entry is erased,
the iterator is at the next one already; there is no result when that one goes with the expired player. -/
def expireOrRefresh (w : World) : List ℕ → LFGQueue → Option LFGQueue
  | [], q => some q
  | guid :: rest, q =>
    match q.queueDataStore.find? guid with
    | none => expireOrRefresh w rest q
    | some d =>
      if d.joinTime + 2 * HOUR < w.now then
        let erased := q.eraseData guid
        let left := leaveAllLfgQueues w erased guid
        if (rest.find? erased.queued).all left.queued = true then expireOrRefresh w rest left else none
      else expireOrRefresh w rest (refreshData w q guid d)

def refreshStatus (q : LFGQueue) (guid : ℕ) : LFGQueue :=
  match q.queueDataStore.find? guid with
  | none => q
  | some d => if d.bestCompatible.empty = true then (q.findBestCompatibleInQueue guid).1 else q

def updateQueueTimers (w : World) (diff : ℕ) (q : LFGQueue) : Option LFGQueue :=
  let sendQueueStatus := decide (LFG_QUEUEUPDATE_INTERVAL < q.queueStatusTimer)
  let q := { q with
    queueStatusTimer := if sendQueueStatus then 0 else q.queueStatusTimer + diff
    compatibleList := q.compatibleList.filter fun e => !e.empty }
  let guids := (q.queueDataStore.rows.map (·.guid)).insertionSort (· ≤ ·)
  if sendQueueStatus then some (guids.foldl refreshStatus q) else expireOrRefresh w guids q

/-! ### Runs -/

inductive Call where
  | addQueueData (guid joinTime : ℕ) (dungeons : Finset ℕ) (roles : RoleRows)
      (sorted : roles.Pairwise (·.1 < ·.1))
  | addToQueue (guid : ℕ) (failedProposal : Bool)
  | removeFromQueue (guid : ℕ) (keepData : Bool)
  | findGroups (w : World)
  | updateQueueTimers (w : World) (diff : ℕ)

/-- `LFGMgr` adds data under the guid of a player or a group that is not queued, for one to five
players and a set of dungeons that is not empty. -/
def step (q : LFGQueue) : Call → Option LFGQueue
  | .addQueueData guid joinTime dungeons roles sorted =>
    guarded (guid ≠ 0 ∧ q.queueDataStore.find? guid = none ∧ roles ≠ [] ∧
      roles.length ≤ MAXGROUPSIZE ∧ dungeons ≠ ∅) (q.addQueueData guid joinTime dungeons roles sorted)
  | .addToQueue guid failedProposal => some (q.addToQueue guid failedProposal)
  | .removeFromQueue guid keepData => some (q.removeFromQueue guid keepData)
  | .findGroups w => some (q.findGroups w)
  | .updateQueueTimers w diff => q.updateQueueTimers w diff

def Starts (q : LFGQueue) : Prop := q = initial

def Reachable : LFGQueue → Prop := Reaches step anyStep Starts

end LFGQueue

end HysteriaCore.Dungeon

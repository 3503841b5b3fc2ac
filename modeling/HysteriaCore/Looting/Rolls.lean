import HysteriaCore.Looting.Fill
import HysteriaCore.Lib.Runs
import Mathlib.Data.List.Sort

/-!
# Loot rolls and the other ways out of a loot (Group, LootHandler)

A group, its rolls and the loots that its members open. `Player::StoreLootItem`, the master looter
and the end of a roll hand entries out. Packets and achievements are not part of the model.
-/

namespace HysteriaCore.Looting
open Lib

def MAXRAIDSIZE : ℕ := 40
def ROLL_PASS : ℕ := 0
def ROLL_NEED : ℕ := 1
def ROLL_GREED : ℕ := 2
def ROLL_DISENCHANT : ℕ := 3
def MAX_ROLL_TYPE : ℕ := 4
def EQUIP_ERR_YOU_CAN_NEVER_USE_THAT_ITEM : ℕ := 11

inductive RollVote where
  | pass | need | greed | disenchant | notEmitedYet | notValid
  deriving DecidableEq

structure PlayerVote where
  guid : ℕ
  vote : RollVote
  deriving DecidableEq

/-- `loot` is the link of `LootValidatorRef`, `none` once the loot was cleared. -/
structure Roll where
  itemGUID : ℕ
  itemid : ℕ
  loot : Option ℕ
  itemSlot : ℕ
  playerVote : KeyedList PlayerVote.guid
  totalPlayersRolling : UInt8
  totalNeed : UInt8
  totalGreed : UInt8
  totalPass : UInt8

/-- A member of the group who is online, at the start of a roll. -/
structure Looter where
  guid : ℕ
  isAtGroupRewardDistance : Bool
  passOnGroupLoot : Bool
  answers : Answers

/-- What is asked and drawn while a roll is counted: who is found on the map, what `urand` gives a
player, and what his inventory says. -/
structure Evaluation where
  finds : ℕ → Bool
  draw : ℕ → ℕ
  canStoreNewItem : ℕ → ℕ → ℕ → ℕ

/-- `smallGroup` is `isBGGroup() || isLFGGroup() || isBFGroup()`. `evaluated` is a log for the
proofs, of the rolls that were counted before their timer. -/
structure World where
  group : Rights
  members : List ℕ
  smallGroup : Bool
  rolls : KeyedList Roll.itemGUID
  loots : ℕ → Loot
  nextItemGuid : ℕ
  evaluated : List Roll

namespace Roll

def new (itemGUID : ℕ) (item : LootItem) : Roll where
  itemGUID := itemGUID
  itemid := item.itemid
  loot := none
  itemSlot := 0
  playerVote := .empty
  totalPlayersRolling := 0
  totalNeed := 0
  totalGreed := 0
  totalPass := 0

def enter (r : Roll) (guid : ℕ) (passes : Bool) : Roll :=
  { r with
    totalPlayersRolling := r.totalPlayersRolling + 1
    playerVote := r.playerVote.put ⟨guid, if passes then .pass else .notEmitedYet⟩
    totalPass := if passes then r.totalPass + 1 else r.totalPass }

def setVote (r : Roll) (guid : ℕ) (vote : RollVote) : Roll :=
  { r with playerVote := r.playerVote.adjust guid ({ · with vote := vote }) fun _ => rfl }

def choose (r : Roll) (guid choice : ℕ) : Roll :=
  if choice = ROLL_PASS then { r.setVote guid .pass with totalPass := r.totalPass + 1 }
  else if choice = ROLL_NEED then { r.setVote guid .need with totalNeed := r.totalNeed + 1 }
  else if choice = ROLL_GREED then { r.setVote guid .greed with totalGreed := r.totalGreed + 1 }
  else if choice = ROLL_DISENCHANT then
    { r.setVote guid .disenchant with totalGreed := r.totalGreed + 1 }
  else r

theorem choose_itemGUID (r : Roll) (guid choice : ℕ) : (r.choose guid choice).itemGUID = r.itemGUID := by
  unfold choose
  split_ifs <;> rfl

def leave (r : Roll) (v : PlayerVote) : Roll :=
  { r with
    totalGreed :=
      if v.vote = .greed ∨ v.vote = .disenchant then r.totalGreed - 1 else r.totalGreed
    totalNeed := if v.vote = .need then r.totalNeed - 1 else r.totalNeed
    totalPass := if v.vote = .pass then r.totalPass - 1 else r.totalPass
    totalPlayersRolling :=
      if v.vote ≠ .notValid then r.totalPlayersRolling - 1 else r.totalPlayersRolling
    playerVote := r.playerVote.erase v.guid }

theorem leave_itemGUID (v : PlayerVote) (r : Roll) : (r.leave v).itemGUID = r.itemGUID := rfl

def complete (r : Roll) : Bool :=
  r.totalPlayersRolling.toNat ≤ r.totalPass.toNat + r.totalNeed.toNat + r.totalGreed.toNat

def inOrder (r : Roll) : List PlayerVote := r.playerVote.rows.insertionSort fun v w => v.guid ≤ w.guid

structure Contest where
  gone : UInt8
  maxresul : ℕ
  winner : Option PlayerVote

def contest (r : Roll) (wants : RollVote → Bool) (e : Evaluation) : Contest :=
  r.inOrder.foldl (fun c v =>
    if !wants v.vote then c
    else if !e.finds v.guid then { c with gone := c.gone + 1 }
    else
      let randomN := e.draw v.guid % 100 + 1
      if c.maxresul < randomN then { c with maxresul := randomN, winner := some v } else c)
    ⟨0, 0, none⟩

end Roll

namespace Loot

def placeOf (loot : Loot) (slot : ℕ) : Place :=
  if loot.items.length ≤ slot then .quest (slot - loot.items.length) else .item slot

def markReserved (guid : ℕ) (item : LootItem) : LootItem :=
  { item with isBlocked := false, rollWinnerGUID := guid }

def markGiven (item : LootItem) : LootItem := { item with isLooted := true, count := 0 }
def unblock (item : LootItem) : LootItem := { item with isBlocked := false }

def giveAway (loot : Loot) (mark : LootItem → LootItem) (p : Place) : Loot :=
  { loot.edit mark p with unlootedCount := loot.unlootedCount - 1 }

def award (loot : Loot) (r : Roll) (guid : ℕ) (e : Evaluation) : Loot :=
  let p := loot.placeOf r.itemSlot
  match loot.entry p with
  | none => loot
  | some item =>
    if e.canStoreNewItem guid r.itemid item.count = EQUIP_ERR_OK then
      (loot.giveAway LootItem.markLooted p).handOver p guid item
    else loot.edit (markReserved guid) p

def masterGive (proto : ℕ → Option ItemTemplate) (loot : Loot) (target : ℕ) (a : Answers)
    (slotid : ℕ) : Loot :=
  if loot.items.length + loot.questItems.length ≤ slotid then loot else
  let p := loot.placeOf slotid
  match loot.entry p with
  | none => loot
  | some item =>
    let msg :=
      if item.followLootRules && !item.allowedForPlayer proto a then
        EQUIP_ERR_YOU_CAN_NEVER_USE_THAT_ITEM
      else a.canStoreNewItem item.itemid item.count
    if msg = EQUIP_ERR_OK then (loot.giveAway markGiven p).handOver p target item else loot

def masterLoot (loot : Loot) : Loot :=
  { loot with
    items := loot.items.map fun item =>
      if item.freeforall then item else { item with isBlocked := !item.isUnderthreshold }
    questItems := loot.questItems.map fun item =>
      if item.followLootRules then { item with isBlocked := !item.isUnderthreshold } else item }

end Loot

namespace Roll

def countNeed (e : Evaluation) (s : Roll × Loot) : Roll × Loot :=
  if s.1.totalNeed ≠ 0 ∧ s.1.playerVote.rows ≠ [] then
    let c := s.1.contest (· = .need) e
    match c.winner with
    | some v => ({ s.1 with totalNeed := s.1.totalNeed - c.gone }, s.2.award s.1 v.guid e)
    | none => ({ s.1 with totalNeed := 0 }, s.2)
  else s

def countGreed (e : Evaluation) (s : Roll × Loot) : Roll × Loot :=
  if s.1.totalNeed = 0 ∧ s.1.totalGreed ≠ 0 ∧ s.1.playerVote.rows ≠ [] then
    let c := s.1.contest (fun v => v = .greed || v = .disenchant) e
    match c.winner with
    | some v =>
      ({ s.1 with totalGreed := s.1.totalGreed - c.gone },
        if v.vote = .greed then s.2.award s.1 v.guid e
        else s.2.giveAway LootItem.markLooted (s.2.placeOf s.1.itemSlot))
    | none => ({ s.1 with totalGreed := 0 }, s.2)
  else s

def countPass (s : Roll × Loot) : Loot :=
  if s.1.totalNeed = 0 ∧ s.1.totalGreed = 0 then
    s.2.edit Loot.unblock (s.2.placeOf s.1.itemSlot)
  else s.2

end Roll

namespace World

def setLoot (w : World) (id : ℕ) (loot : Loot) : World :=
  { w with loots := Function.update w.loots id loot }

def told (w : World) (guid : ℕ) (a : Answers) : Answers :=
  if guid ∈ w.members then { a with group := some w.group } else a

def toldVisitor (w : World) (v : Visitor) : Visitor :=
  { v with answers := fun i => w.told v.guid (v.answers i) }

def toldFilling (w : World) (f : Filling) : Filling :=
  { f with owner := w.toldVisitor f.owner, members := f.members.map w.toldVisitor }

section Rolling
variable (proto : ℕ → Option ItemTemplate)

def enterAll (looters : List Looter) (item : LootItem) (autoPass : Bool) (r : Roll) : Roll :=
  looters.foldl (fun r l =>
    if l.isAtGroupRewardDistance && item.allowedForPlayer proto l.answers then
      r.enter l.guid (autoPass && l.passOnGroupLoot)
    else r) r

def startRoll (w : World) (id itemSlot : ℕ) (p : Place) (item : LootItem) (autoPass : Bool)
    (looters : List Looter) : World :=
  let r := enterAll proto looters item autoPass (Roll.new w.nextItemGuid item)
  let w := { w with nextItemGuid := w.nextItemGuid + 1 }
  if r.totalPlayersRolling ≠ 0 then
    let w := w.setLoot id ((w.loots id).edit LootItem.markBlocked p)
    { w with rolls := w.rolls.put { r with loot := some id, itemSlot := itemSlot } }
  else w

def rollItem (id : ℕ) (looters : List Looter) (w : World) (i : ℕ) : World :=
  match (w.loots id).items[i]? with
  | none => w
  | some item =>
    if item.freeforall then w else
    match proto item.itemid with
    | none => w
    | some p =>
      if w.group.lootThreshold ≤ p.quality then w.startRoll proto id i (.item i) item true looters
      else w.setLoot id ((w.loots id).edit ({ · with isUnderthreshold := true }) (.item i))

def rollQuestItem (id : ℕ) (looters : List Looter) (w : World) (i : ℕ) : World :=
  match (w.loots id).questItems[i]? with
  | none => w
  | some item =>
    if !item.followLootRules || (proto item.itemid).isNone then w
    else w.startRoll proto id ((w.loots id).items.length + i) (.quest i) item false looters

def groupLoot (w : World) (id : ℕ) (looters : List Looter) : World :=
  let w := (List.range (w.loots id).items.length).foldl (rollItem proto id looters) w
  (List.range (w.loots id).questItems.length).foldl (rollQuestItem proto id looters) w

/-- `Group::NeedBeforeGreed` differs in the votes that the client is offered. -/
def needBeforeGreed (w : World) (id : ℕ) (looters : List Looter) : World :=
  w.groupLoot proto id looters

end Rolling

def countTheRoll (w : World) (r : Roll) (e : Evaluation) : World :=
  let w := { w with rolls := w.rolls.erase r.itemGUID }
  match r.loot with
  | none => w
  | some id => w.setLoot id (Roll.countPass (Roll.countGreed e (Roll.countNeed e (r, w.loots id))))

def getRoll (w : World) (itemGUID : ℕ) : Option Roll :=
  (w.rolls.find? itemGUID).filter (·.loot.isSome)

def rollFor (w : World) (guid itemGUID choice : ℕ) : Option Roll :=
  (w.getRoll itemGUID).filter fun r =>
    -- a player who joined the party after the roll began
    !(choice < MAX_ROLL_TYPE && (r.playerVote.find? guid).isNone) &&
      !r.loot.any fun id => (w.loots id).items.isEmpty

def countRollVote (w : World) (guid itemGUID choice : ℕ) (e : Evaluation) : World :=
  match w.rollFor guid itemGUID choice with
  | none => w
  | some r =>
    let r := r.choose guid choice
    let w := { w with
      rolls := w.rolls.adjust itemGUID (Roll.choose · guid choice) (Roll.choose_itemGUID · _ _) }
    if r.complete then { w with evaluated := w.evaluated ++ [r] }.countTheRoll r e else w

/-- A round of the loop of `RemoveMember` over the rolls. The loop starts again after a roll that
was counted; the rolls before it no longer have the player. -/
def leaveRoll (guid : ℕ) (e : ℕ → Evaluation) (w : World) (itemGUID : ℕ) : World :=
  match w.rolls.find? itemGUID with
  | none => w
  | some r =>
    match r.playerVote.find? guid with
    | none => w
    | some v =>
      { w with rolls := w.rolls.adjust itemGUID (Roll.leave · v) fun _ => rfl }.countRollVote
        guid itemGUID MAX_ROLL_TYPE (e itemGUID)

def disband (w : World) : World := { w with rolls := .empty, members := [] }

def removeMember (w : World) (guid : ℕ) (e : ℕ → Evaluation) : World :=
  if (if w.smallGroup then 1 else 2) < w.members.length then
    let w := (w.rolls.rows.map Roll.itemGUID).foldl (leaveRoll guid e) w
    { w with members := w.members.erase guid }
  else w.disband

def endRollOf (id : ℕ) (e : ℕ → Evaluation) (w : World) (r : Roll) : World :=
  if r.loot = some id then w.countTheRoll r (e r.itemGUID) else w

def endRoll (w : World) (id : ℕ) (e : ℕ → Evaluation) : World := w.rolls.rows.foldl (endRollOf id e) w

def clear (w : World) (id : ℕ) : World :=
  { w.setLoot id (.new 0) with
    rolls := w.rolls.mapRows (fun r => if r.loot = some id then { r with loot := none } else r)
      fun r => by split <;> rfl }

end World

inductive Event where
  | fillLoot (id : ℕ) (f : Filling)
  | fillNotNormalLootFor (id : ℕ) (v : Visitor)
  | groupLoot (id : ℕ) (looters : KeyedList Looter.guid)
  | needBeforeGreed (id : ℕ) (looters : KeyedList Looter.guid)
  | masterLoot (id : ℕ)
  | storeLootItem (id guid : ℕ) (a : Answers) (lootSlot : ℕ)
  | masterGive (id giver target : ℕ) (a : Answers) (slotid : ℕ)
  | lootRoll (guid itemGUID rollType : ℕ) (e : Evaluation)
  | addMember (guid : ℕ)
  | removeMember (guid : ℕ) (e : ℕ → Evaluation)
  | disband
  | setLootMethod (group : Rights)
  | endRoll (id : ℕ) (e : ℕ → Evaluation)
  | clear (id : ℕ)

namespace World

def step (proto : ℕ → Option ItemTemplate) (w : World) : Event → Option World
  | .fillLoot id f => some (w.setLoot id ((w.loots id).fillLoot proto (w.toldFilling f)))
  | .fillNotNormalLootFor id v =>
    some (w.setLoot id ((w.loots id).fillNotNormalLootFor proto (w.toldVisitor v)))
  | .groupLoot id looters =>
    guarded (∀ l ∈ looters.rows, l.guid ∈ w.members) (w.groupLoot proto id looters.rows)
  | .needBeforeGreed id looters =>
    guarded (∀ l ∈ looters.rows, l.guid ∈ w.members) (w.needBeforeGreed proto id looters.rows)
  | .masterLoot id => some (w.setLoot id (w.loots id).masterLoot)
  | .storeLootItem id guid a lootSlot =>
    some (w.setLoot id ((w.loots id).storeLootItem proto guid (w.told guid a) lootSlot))
  | .masterGive id giver target a slotid =>
    guarded (giver ∈ w.members ∧ w.group.masterLooterGuid = giver ∧ w.group.lootMethod = .masterLoot ∧
        target ∈ w.members)
      (w.setLoot id ((w.loots id).masterGive proto target (w.told target a) slotid))
  | .lootRoll guid itemGUID rollType e =>
    guarded (guid ∈ w.members) (w.countRollVote guid itemGUID rollType e)
  | .addMember guid =>
    guarded (guid ∉ w.members ∧ w.members.length < MAXRAIDSIZE)
      { w with members := guid :: w.members }
  | .removeMember guid e => some (w.removeMember guid e)
  | .disband => some w.disband
  | .setLootMethod group => some { w with group := group }
  | .endRoll id e => some (w.endRoll id e)
  | .clear id => some (w.clear id)

def Started (w : World) : Prop :=
  w.rolls = .empty ∧ w.evaluated = [] ∧ w.members.length ≤ MAXRAIDSIZE ∧
    ∀ id, ∃ gold, w.loots id = .new gold

section Samples

def samplePair : World :=
  ⟨⟨.groupLoot, 0, 1⟩, [1, 2], false, .empty, fun _ => .new 0, 1, []⟩

theorem samplePair_started : samplePair.Started := ⟨rfl, rfl, by decide, fun _ => ⟨0, rfl⟩⟩

def sampleLooters : KeyedList Looter.guid :=
  ⟨[⟨1, true, false, member .groupLoot⟩, ⟨2, true, false, member .groupLoot⟩], by decide⟩

def sampleEvaluation : Evaluation := ⟨fun _ => true, fun guid => guid, fun _ _ _ => EQUIP_ERR_OK⟩

end Samples

end World

end HysteriaCore.Looting

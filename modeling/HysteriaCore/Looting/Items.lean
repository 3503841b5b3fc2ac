import HysteriaCore.Lib.KeyedList

/-!
# Loot (game/Loot/LootMgr.cpp, LootMgr.h; Player::StoreLootItem)

A `Loot` keeps its entries in two vectors and, for each player, lists of the entries that are
his to take. Packets, achievements, the allowed looters of a trade window and the stored loot of
item containers are not part of the model.
-/

namespace HysteriaCore.Looting
open Lib

inductive LootMethod where
  | freeForAll | roundRobin | masterLoot | groupLoot | needBeforeGreed
  deriving DecidableEq

inductive TeamId where
  | alliance | horde | neutral
  deriving DecidableEq

def MAX_NR_LOOT_ITEMS : ℕ := 16
def MAX_NR_QUEST_ITEMS : ℕ := 32
def EQUIP_ERR_OK : ℕ := 0

structure ItemTemplate where
  quality : ℕ
  maxStackSize : ℕ
  partyLoot : Bool
  smartLoot : Bool
  hordeOnly : Bool
  allianceOnly : Bool
  followLootRules : Bool
  ignoreQuestStatus : Bool
  isCurrencyToken : Bool
  requiredSkill : ℕ
  spell : ℕ
  startQuest : ℕ

/-- What a looter's group says: `GetLootMethod`, `GetMasterLooterGuid`, `GetLootThreshold`. -/
structure Rights where
  lootMethod : LootMethod
  masterLooterGuid : ℕ
  lootThreshold : ℕ
  deriving DecidableEq

/-- What a `Player` answers at one moment. `meets` is asked about lists with a condition in them,
`lootsItem` is `IS_ITEM_GUID(GetLootGUID())`. -/
structure Answers where
  meets : List ℕ → Bool
  hasSkill : ℕ → Bool
  hasSpell : ℕ → Bool
  team : TeamId
  hasQuestStatus : ℕ → Bool
  hasQuestForItem : ℕ → Bool
  group : Option Rights
  lootsItem : Bool
  canStoreNewItem : ℕ → ℕ → ℕ

structure LootStoreItem where
  itemid : ℕ
  needsQuest : Bool
  conditions : List ℕ

structure LootItem where
  itemid : ℕ
  conditions : List ℕ
  rollWinnerGUID : ℕ
  count : ℕ
  isLooted : Bool
  isBlocked : Bool
  freeforall : Bool
  isUnderthreshold : Bool
  isCounted : Bool
  needsQuest : Bool
  followLootRules : Bool
  deriving DecidableEq

/-- An entry of a player's list: the index of the item and whether he has taken it. -/
structure QuestItem where
  index : ℕ
  isLooted : Bool
  deriving DecidableEq

structure PlayerItems where
  guid : ℕ
  list : List QuestItem

abbrev QuestItemMap := KeyedList PlayerItems.guid

inductive Place where
  | item (i : ℕ)
  | quest (i : ℕ)
  deriving DecidableEq

structure Taken where
  place : Place
  guid : ℕ
  freeforall : Bool
  deriving DecidableEq

structure Loot where
  items : List LootItem
  questItems : List LootItem
  gold : ℕ
  unlootedCount : UInt8
  roundRobinPlayer : ℕ
  playerQuestItems : QuestItemMap
  playerFFAItems : QuestItemMap
  playerConditionalItems : QuestItemMap
  taken : List Taken

def Loot.new (gold : ℕ) : Loot where
  items := []
  questItems := []
  gold := gold
  unlootedCount := 0
  roundRobinPlayer := 0
  playerQuestItems := .empty
  playerFFAItems := .empty
  playerConditionalItems := .empty
  taken := []

/-- The entry of a player's list that `LootItemInSlot` found: `qitem`, `ffaitem` or `conditem`. -/
inductive Own where
  | qitem (pos : ℕ)
  | ffaitem (pos : ℕ)
  | conditem (pos : ℕ)
  deriving DecidableEq

structure Found where
  place : Place
  item : LootItem
  own : Option Own
  deriving DecidableEq

namespace LootItem

/-- `AllowedForPlayer`, with the item templates of `sObjectMgr`. -/
def allowedForPlayer (proto : ℕ → Option ItemTemplate) (item : LootItem) (a : Answers) : Bool :=
  (item.conditions.isEmpty || a.meets item.conditions) &&
  match proto item.itemid with
  | none => false
  | some p =>
    !(p.smartLoot && (!a.hasSkill p.requiredSkill || a.hasSpell p.spell)) &&
    !(p.hordeOnly && a.team ≠ .horde) &&
    !(p.allianceOnly && a.team ≠ .alliance) &&
    !(!p.ignoreQuestStatus &&
      ((item.needsQuest || (p.startQuest ≠ 0 && a.hasQuestStatus p.startQuest)) &&
        !a.hasQuestForItem item.itemid))

def ofStore (proto : ℕ → Option ItemTemplate) (li : LootStoreItem) (count : ℕ) : LootItem where
  itemid := li.itemid
  conditions := li.conditions
  rollWinnerGUID := 0
  count := count
  isLooted := false
  isBlocked := false
  freeforall := (proto li.itemid).any (·.partyLoot)
  isUnderthreshold := false
  isCounted := false
  needsQuest := li.needsQuest
  followLootRules := (proto li.itemid).any (·.followLootRules)

def markLooted (item : LootItem) : LootItem := { item with isLooted := true }
def markBlocked (item : LootItem) : LootItem := { item with isBlocked := true }
def markCounted (item : LootItem) : LootItem := { item with isCounted := true }

/-- The items that follow loot rules are listed for everyone but the members of a group whose
master looter is somebody else. -/
def followsRulesOf (item : LootItem) (guid : ℕ) (a : Answers) : Bool :=
  item.followLootRules && a.group.any fun g =>
    (g.lootMethod = .masterLoot && g.masterLooterGuid = guid) || g.lootMethod ≠ .masterLoot

end LootItem

namespace Loot

def entry (loot : Loot) : Place → Option LootItem
  | .item i => loot.items[i]?
  | .quest i => loot.questItems[i]?

def edit (loot : Loot) (f : LootItem → LootItem) : Place → Loot
  | .item i => { loot with items := loot.items.modify i f }
  | .quest i => { loot with questItems := loot.questItems.modify i f }

def isLooted (loot : Loot) : Bool := loot.gold = 0 && loot.unlootedCount = 0

end Loot

def QuestItemMap.listOf (m : QuestItemMap) (guid : ℕ) : List QuestItem :=
  ((m.find? guid).map PlayerItems.list).getD []

def QuestItemMap.take (m : QuestItemMap) (guid pos : ℕ) : QuestItemMap :=
  m.adjust guid (fun row => { row with list := row.list.modify pos ({ · with isLooted := true }) })
    fun _ => rfl

section Taking
variable (proto : ℕ → Option ItemTemplate)

namespace Loot

def ownEntry (list : List QuestItem) (i : ℕ) : Option (ℕ × QuestItem) :=
  list.zipIdx.find? (fun q => q.1.index = i) |>.map fun q => (q.2, q.1)

def lootItemInSlot (loot : Loot) (lootSlot guid : ℕ) (a : Answers) : Option Found :=
  if loot.items.length ≤ lootSlot then
    let questSlot := lootSlot - loot.items.length
    match (loot.playerQuestItems.listOf guid)[questSlot]? with
    | none => none
    | some qitem =>
      match loot.questItems[qitem.index]? with
      | none => none
      | some item =>
        -- such items are added to every player, but not everyone is allowed
        if item.followLootRules && !item.allowedForPlayer proto a then none
        else if qitem.isLooted then none
        else some ⟨.quest qitem.index, item, some (.qitem questSlot)⟩
  else
    match loot.items[lootSlot]? with
    | none => none
    | some item =>
      let own : Option (Own × Bool) :=
        if item.freeforall then
          (ownEntry (loot.playerFFAItems.listOf guid) lootSlot).map fun q => (.ffaitem q.1, q.2.isLooted)
        else if !item.conditions.isEmpty then
          (ownEntry (loot.playerConditionalItems.listOf guid) lootSlot).map fun q =>
            (.conditem q.1, q.2.isLooted)
        else none
      -- the flag of the player's own entry stands in for the flag of the item
      if (own.map Prod.snd).getD item.isLooted then none
      else some ⟨.item lootSlot, item, own.map Prod.fst⟩

/-- The exploit protection of `StoreLootItem`: in a master loot group only the master looter takes
what is on nobody's list. -/
def masterOnly (guid : ℕ) (a : Answers) : Bool :=
  !a.lootsItem && a.group.any fun g => g.lootMethod = .masterLoot && guid ≠ g.masterLooterGuid

def admits (guid : ℕ) (a : Answers) (f : Found) : Bool :=
  !(masterOnly guid a && f.own.isNone) &&
  f.item.allowedForPlayer proto a &&
  !(f.item.isBlocked && match f.own with | some (.qitem _) => false | _ => true) &&
  !(f.item.rollWinnerGUID ≠ 0 && f.item.rollWinnerGUID ≠ guid)

def grant (loot : Loot) (guid : ℕ) (a : Answers) (lootSlot : ℕ) : Option Found :=
  (loot.lootItemInSlot proto lootSlot guid a).filter (admits proto guid a)

def takeOwn (loot : Loot) (guid : ℕ) : Option Own → Loot
  | some (.qitem pos) => { loot with playerQuestItems := loot.playerQuestItems.take guid pos }
  | some (.ffaitem pos) => { loot with playerFFAItems := loot.playerFFAItems.take guid pos }
  | some (.conditem pos) =>
    { loot with playerConditionalItems := loot.playerConditionalItems.take guid pos }
  | none => loot

def take (loot : Loot) (guid : ℕ) (f : Found) : Loot :=
  let loot := loot.takeOwn guid f.own
  let loot := if f.item.freeforall then loot else loot.edit LootItem.markLooted f.place
  { loot with unlootedCount := loot.unlootedCount - 1 }

def handOver (loot : Loot) (p : Place) (guid : ℕ) (item : LootItem) : Loot :=
  { loot with
    taken := if item.count = 0 then loot.taken else loot.taken ++ [⟨p, guid, item.freeforall⟩] }

def storeLootItem (loot : Loot) (guid : ℕ) (a : Answers) (lootSlot : ℕ) : Loot :=
  match loot.grant proto guid a lootSlot with
  | none => loot
  | some f =>
    if a.canStoreNewItem f.item.itemid f.item.count = EQUIP_ERR_OK then
      (loot.take guid f).handOver f.place guid f.item
    else loot

end Loot

end Taking

namespace Loot

theorem entry_edit (loot : Loot) (f : LootItem → LootItem) (p p' : Place) :
    (loot.edit f p).entry p' = if p = p' then (loot.entry p').map f else loot.entry p' := by
  have hget : ∀ (l : List LootItem) (i j : ℕ),
      (l.modify i f)[j]? = if i = j then l[j]?.map f else l[j]? := by
    intro l i j
    rw [List.getElem?_modify]
    split <;> cases l[j]? <;> rfl
  cases p <;> cases p' <;> simp [edit, entry, hget]

@[simp] theorem entry_takeOwn (loot : Loot) (guid : ℕ) (own : Option Own) (p : Place) :
    (loot.takeOwn guid own).entry p = loot.entry p := by
  rcases own with _ | own
  · rfl
  · cases own <;> cases p <;> rfl

theorem entry_take (loot : Loot) (guid : ℕ) (f : Found) (p : Place) :
    (loot.take guid f).entry p =
      if f.place = p ∧ f.item.freeforall = false then (loot.entry p).map LootItem.markLooted
      else loot.entry p := by
  have h : (loot.take guid f).entry p = (if f.item.freeforall then loot.takeOwn guid f.own
      else (loot.takeOwn guid f.own).edit LootItem.markLooted f.place).entry p := by
    cases p <;> rfl
  rw [h]
  cases hffa : f.item.freeforall with
  | true => simp
  | false =>
    simp only [Bool.false_eq_true, if_false, and_true]
    rw [entry_edit, entry_takeOwn]

theorem unlootedCount_take (loot : Loot) (guid : ℕ) (f : Found) :
    (loot.take guid f).unlootedCount = loot.unlootedCount - 1 := by
  obtain ⟨place, item, own⟩ := f
  have hown : (loot.takeOwn guid own).unlootedCount = loot.unlootedCount := by
    rcases own with _ | own
    · rfl
    · cases own <;> rfl
  rw [take]
  cases item.freeforall <;> cases place <;> exact congrArg (· - 1) hown

@[simp] theorem taken_take (loot : Loot) (guid : ℕ) (f : Found) :
    (loot.take guid f).taken = loot.taken := by
  obtain ⟨place, item, own⟩ := f
  have hown : (loot.takeOwn guid own).taken = loot.taken := by
    rcases own with _ | own
    · rfl
    · cases own <;> rfl
  rw [take]
  cases item.freeforall <;> cases place <;> exact hown

end Loot

end HysteriaCore.Looting

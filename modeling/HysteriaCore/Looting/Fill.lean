import HysteriaCore.Looting.Items

/-!
# Filling a loot, and its window (Loot::AddItem, Loot::FillLoot, Loot::FillNotNormalLootFor)

The three lists of a player are filled by one loop each, which walks a vector of entries, picks
some, marks what it picked and raises `unlootedCount`. A record of the loot window holds a slot,
the entry and a slot type; the display and enchantment numbers of an entry are left out.
-/

namespace HysteriaCore.Looting
open Lib

/-- A player whom the loot is filled for: `answers 0` is what he says while his lists are made,
`answers (i + 1)` when slot `i` is stored for him. -/
structure Visitor where
  guid : ℕ
  answers : ℕ → Answers
  present : Bool

/-- A call of `FillLoot`: what the template dropped with the counts drawn, the owner, and the
members of his group who are in his map. -/
structure Filling where
  drops : List (LootStoreItem × ℕ)
  owner : Visitor
  personal : Bool
  members : List Visitor

def picked (picks : LootItem → Bool) (full : ℕ → Bool) : ℕ → ℕ → List LootItem → List (LootItem × ℕ)
  | _, _, [] => []
  | i, n, item :: rest =>
    if picks item then
      (item, i) :: if full (n + 1) then [] else picked picks full (i + 1) (n + 1) rest
    else picked picks full (i + 1) n rest

def markPicked (l : List (LootItem × ℕ)) (mark : LootItem → LootItem) (items : List LootItem) :
    List LootItem :=
  items.zipIdx.map fun x => if x ∈ l then mark x.1 else x.1

def enlist (l : List (LootItem × ℕ)) : List QuestItem := l.map fun x => ⟨x.2, false⟩

section Filling
variable (proto : ℕ → Option ItemTemplate)

namespace Loot

def addStacks (p : ItemTemplate) (item : LootStoreItem) : ℕ → ℕ → Loot → Loot
  | 0, _, loot => loot
  | n + 1, count, loot =>
    let generatedLoot := LootItem.ofStore proto item (min count p.maxStackSize)
    if item.needsQuest then
      if loot.questItems.length < MAX_NR_QUEST_ITEMS then
        addStacks p item n (count - p.maxStackSize)
          { loot with questItems := loot.questItems ++ [generatedLoot] }
      else loot
    else if loot.items.length < MAX_NR_LOOT_ITEMS then
      addStacks p item n (count - p.maxStackSize)
        { loot with
          items := loot.items ++ [generatedLoot]
          -- what is for one player and unconditional is counted here, the rest in the lists
          unlootedCount :=
            if item.conditions.isEmpty && !p.partyLoot then loot.unlootedCount + 1
            else loot.unlootedCount }
    else loot

def addItem (loot : Loot) (item : LootStoreItem) (count : ℕ) : Loot :=
  match proto item.itemid with
  | none => loot
  | some p =>
    loot.addStacks proto p item
      (count / p.maxStackSize + if count % p.maxStackSize = 0 then 0 else 1) count

def ffaPicks (loot : Loot) (a : Answers) : List (LootItem × ℕ) :=
  picked (fun item => !item.isLooted && item.freeforall && item.allowedForPlayer proto a)
    (fun _ => false) 0 0 loot.items

def fillFFALoot (loot : Loot) (guid : ℕ) (a : Answers) : Loot :=
  let ql := loot.ffaPicks proto a
  if ql.isEmpty then loot else
  { loot with
    unlootedCount := loot.unlootedCount + .ofNat ql.length
    playerFFAItems := loot.playerFFAItems.put ⟨guid, enlist ql⟩ }

def questPicks (loot : Loot) (guid : ℕ) (a : Answers) : List (LootItem × ℕ) :=
  if loot.items.length = MAX_NR_LOOT_ITEMS then [] else
  picked (fun item => !item.isLooted && (item.allowedForPlayer proto a || item.followsRulesOf guid a))
    (fun n => loot.items.length + n = MAX_NR_LOOT_ITEMS) 0 0 loot.questItems

def blocksQuestItems (a : Answers) : Bool :=
  !a.group.any fun g => g.lootMethod = .groupLoot || g.lootMethod = .roundRobin

def fillQuestLoot (loot : Loot) (guid : ℕ) (a : Answers) : Loot :=
  let ql := loot.questPicks proto guid a
  if ql.isEmpty then loot else
  { loot with
    questItems :=
      if blocksQuestItems a then markPicked ql LootItem.markBlocked loot.questItems
      else loot.questItems
    unlootedCount := loot.unlootedCount + .ofNat (ql.countP fun x => x.1.freeforall || !x.1.isBlocked)
    playerQuestItems := loot.playerQuestItems.put ⟨guid, enlist ql⟩ }

def conditionalPicks (loot : Loot) (guid : ℕ) (a : Answers) : List (LootItem × ℕ) :=
  picked (fun item => !item.isLooted && !item.freeforall &&
      (item.allowedForPlayer proto a || item.followsRulesOf guid a) && !item.conditions.isEmpty)
    (fun _ => false) 0 0 loot.items

def fillConditionalLoot (loot : Loot) (guid : ℕ) (a : Answers) : Loot :=
  let ql := loot.conditionalPicks proto guid a
  if ql.isEmpty then loot else
  { loot with
    items := markPicked ql LootItem.markCounted loot.items
    unlootedCount := loot.unlootedCount + .ofNat (ql.countP fun x => !x.1.isCounted)
    playerConditionalItems := loot.playerConditionalItems.put ⟨guid, enlist ql⟩ }

def maxSlotInLootFor (loot : Loot) (guid : ℕ) : ℕ :=
  loot.items.length + (loot.playerQuestItems.listOf guid).length

/-- The test of `FillNotNormalLootFor` for a slot: past `items` it reads `quest_items` itself, not
the player's list. -/
def currencyAt (loot : Loot) (i : ℕ) (a : Answers) : Bool :=
  let item := if i < loot.items.length then loot.items[i]? else loot.questItems[i - loot.items.length]?
  item.any fun item => !item.isLooted && item.freeforall && item.allowedForPlayer proto a &&
    (proto item.itemid).any (·.isCurrencyToken)

def storeCurrency (v : Visitor) (loot : Loot) (i : ℕ) : Loot :=
  if loot.currencyAt proto i (v.answers (i + 1)) then
    loot.storeLootItem proto v.guid (v.answers (i + 1)) i
  else loot

def fillQuestLootOnce (loot : Loot) (guid : ℕ) (a : Answers) : Loot :=
  if (loot.playerQuestItems.find? guid).isSome then loot else loot.fillQuestLoot proto guid a

def fillFFALootOnce (loot : Loot) (guid : ℕ) (a : Answers) : Loot :=
  if (loot.playerFFAItems.find? guid).isSome then loot else loot.fillFFALoot proto guid a

def fillConditionalLootOnce (loot : Loot) (guid : ℕ) (a : Answers) : Loot :=
  if (loot.playerConditionalItems.find? guid).isSome then loot
  else loot.fillConditionalLoot proto guid a

def fillLists (loot : Loot) (guid : ℕ) (a : Answers) : Loot :=
  ((loot.fillQuestLootOnce proto guid a).fillFFALootOnce proto guid a).fillConditionalLootOnce
    proto guid a

def fillNotNormalLootFor (loot : Loot) (v : Visitor) : Loot :=
  let loot := loot.fillLists proto v.guid (v.answers 0)
  if v.present then (List.range (loot.maxSlotInLootFor v.guid)).foldl (storeCurrency proto v) loot
  else loot

def markUnderthreshold (loot : Loot) (lootThreshold : ℕ) : Loot :=
  { loot with
    items := loot.items.map fun item =>
      if (proto item.itemid).any (·.quality < lootThreshold) then { item with isUnderthreshold := true }
      else item }

def process (loot : Loot) (drops : List (LootStoreItem × ℕ)) : Loot :=
  drops.foldl (fun loot drop => loot.addItem proto drop.1 drop.2) loot

def fillLoot (loot : Loot) (f : Filling) : Loot :=
  let loot := loot.process proto f.drops
  match (f.owner.answers 0).group, f.personal with
  | some group, false =>
    (f.members.foldl (fillNotNormalLootFor proto)
      { loot with roundRobinPlayer := f.owner.guid }).markUnderthreshold proto group.lootThreshold
  | _, _ => loot.fillNotNormalLootFor proto { f.owner with present := true }

end Loot

end Filling

section Samples

def ordinary (_ : ℕ) : Option ItemTemplate :=
  some ⟨1, 1, false, false, false, false, false, false, false, 0, 0, 0⟩

def member (method : LootMethod) : Answers :=
  ⟨fun _ => true, fun _ => true, fun _ => false, .alliance, fun _ => false, fun _ => true,
    some ⟨method, 0, 2⟩, false, fun _ _ => EQUIP_ERR_OK⟩

def sampleFilling (method : LootMethod) : Filling :=
  ⟨[(⟨7, false, []⟩, 1), (⟨8, true, []⟩, 1)], ⟨1, fun _ => member method, true⟩, false,
    [⟨1, fun _ => member method, true⟩, ⟨2, fun _ => member method, true⟩]⟩

end Samples

/-! ### The loot window (operator<<(ByteBuffer&, LootView const&)) -/

inductive PermissionTypes where
  | all | group | master | restricted | roundRobin | owner | none
  deriving DecidableEq

inductive LootSlotType where
  | allowLoot | rollOngoing | master | locked | owner
  deriving DecidableEq

/-- Who looks into a loot. `SendLoot` gives the master permission to members of a group only. -/
structure Viewer where
  guid : ℕ
  answers : Answers
  permission : PermissionTypes
  grouped : permission = .master → answers.group.isSome = true

structure Record where
  slot : ℕ
  place : Place
  item : LootItem
  slotType : LootSlotType
  deriving DecidableEq

structure Window where
  gold : ℕ
  itemsShown : UInt8
  records : List Record

def LootSlotType.takes (t : LootSlotType) : Bool := t = .allowLoot || t = .owner

namespace Viewer

def slotType (v : Viewer) : LootSlotType := if v.permission = .owner then .owner else .allowLoot

def partySlotType (v : Viewer) : LootSlotType :=
  if v.permission = .master then .master else v.slotType

def plainType (v : Viewer) (loot : Loot) (item : LootItem) : Option LootSlotType :=
  match v.permission with
  | .group | .master | .restricted =>
    if item.isBlocked then
      match v.permission with
      | .group => some .rollOngoing
      | .master =>
        if v.answers.group.any fun g => g.masterLooterGuid = v.guid then some .master else some .locked
      | _ => some .locked
    else if item.rollWinnerGUID ≠ 0 then
      if item.rollWinnerGUID = v.guid then some .owner else none
    else if loot.roundRobinPlayer = 0 || v.guid = loot.roundRobinPlayer || !item.isUnderthreshold then
      some .allowLoot
    else none
  | .roundRobin =>
    if loot.roundRobinPlayer ≠ 0 && v.guid ≠ loot.roundRobinPlayer then none else some .allowLoot
  | .all => some .allowLoot
  | .owner => some .owner
  | .none => none

def listType (v : Viewer) (item : LootItem) : LootSlotType :=
  if item.followLootRules then
    match v.permission with
    | .master => .master
    | .restricted => if item.isBlocked then .locked else v.slotType
    | .group | .roundRobin => if item.isBlocked then .rollOngoing else .allowLoot
    | _ => v.slotType
  else if item.freeforall then v.slotType else v.partySlotType

end Viewer

section View
variable (proto : ℕ → Option ItemTemplate)

namespace Loot

def plainRecords (loot : Loot) (v : Viewer) : List Record :=
  loot.items.zipIdx.filterMap fun x =>
    if !x.1.isLooted && !x.1.freeforall && x.1.conditions.isEmpty &&
        x.1.allowedForPlayer proto v.answers then
      (v.plainType loot x.1).map fun t => ⟨x.2 % 256, .item x.2, x.1, t⟩
    else none

def questRecords (loot : Loot) (v : Viewer) : List Record :=
  (loot.playerQuestItems.listOf v.guid).zipIdx.filterMap fun q =>
    loot.questItems[q.1.index]?.bind fun item =>
      if !q.1.isLooted && !item.isLooted then
        some ⟨(loot.items.length + q.2) % 256, .quest q.1.index, item, v.listType item⟩
      else none

def listRecords (loot : Loot) (list : List QuestItem) (type : LootItem → LootSlotType) : List Record :=
  list.filterMap fun q =>
    loot.items[q.index]?.bind fun item =>
      if !q.isLooted && !item.isLooted then some ⟨q.index % 256, .item q.index, item, type item⟩
      else none

def ffaRecords (loot : Loot) (v : Viewer) : List Record :=
  loot.listRecords (loot.playerFFAItems.listOf v.guid) fun _ => .allowLoot

def conditionalRecords (loot : Loot) (v : Viewer) : List Record :=
  loot.listRecords (loot.playerConditionalItems.listOf v.guid) v.listType

def view (loot : Loot) (v : Viewer) : Window :=
  if v.permission = .none then ⟨0, 0, []⟩ else
  let records := loot.plainRecords proto v ++ loot.questRecords v ++ loot.ffaRecords v ++
    loot.conditionalRecords v
  -- `++itemsShown` goes with each record
  ⟨loot.gold, .ofNat records.length, records⟩

def shows (loot : Loot) (v : Viewer) (slot : ℕ) : Bool :=
  (loot.view proto v).records.any fun r => r.slot = slot && r.slotType.takes

end Loot

end View

end HysteriaCore.Looting

import HysteriaCore.Auctions.House

/-!
# Putting items up for auction

`HandleAuctionSellItem` checks a request, takes the deposit and lists the items, all stacks as one.
`none` is the end of the process, at an assertion or at a null pointer.
-/

namespace HysteriaCore.Auctions.Sales
open Lib Objects

/-! ### Auction houses -/

def NODE_TYPE_MASTER : ℕ := 1
def FACTION_MASK_ALLIANCE : ℕ := 2
def FACTION_MASK_HORDE : ℕ := 4
def AUCTIONHOUSE_ALLIANCE : ℕ := 2
def AUCTIONHOUSE_HORDE : ℕ := 6
def AUCTIONHOUSE_NEUTRAL : ℕ := 7

structure FactionTemplateEntry where
  ourMask : ℕ

structure AuctionHouseEntry where
  houseId : ℕ
  depositPercent : ℕ
  cutPercent : ℕ
  deriving DecidableEq

structure AuctionHouseStore where
  lookupEntry : ℕ → Option AuctionHouseEntry
  indexed : ∀ id entry, lookupEntry id = some entry → entry.houseId = id

structure CreatureData where
  id : ℕ

structure CreatureTemplate where
  faction : ℕ

structure Creature where
  entry : ℕ
  faction : ℕ

/-! ### Items -/

structure ItemTemplate where
  itemId : ℕ
  flags : ℕ
  stackable : ℤ
  sellPrice : ℕ
  deriving DecidableEq

def ITEM_PROTO_FLAG_CONJURED : ℕ := 0x2

def ItemTemplate.getMaxStackSize (t : ItemTemplate) : ℕ :=
  if t.stackable = 2147483647 ∨ t.stackable ≤ 0 then 0x7FFFFFFF - 1 else t.stackable.toNat

/-- `template` is what `GetTemplate` finds: no item is made without one. -/
structure Item where
  guid : ℕ
  template : ItemTemplate
  count : ℕ
  duration : ℕ
  lootGenerated : Bool
  soulBound : Bool
  bopTradeable : Bool
  boundAccountWide : Bool
  boundByTempEnchant : Bool
  boundByEnchant : Bool
  isBag : Bool
  isBagPos : Bool
  isEmpty : Bool
  deriving DecidableEq

namespace Item

def guidLow (i : Item) : ℕ := i.guid % 2 ^ 32

def isNotEmptyBag (i : Item) : Bool := i.isBag && !i.isEmpty

end Item

structure Player where
  guidLow : ℕ
  money : ℕ
  money_le : money ≤ maxMoneyAmount
  lootGuid : ℕ
  inventory : KeyedList Item.guid

/-- The tables and settings of a node, and what it computes in floating point. -/
structure Server where
  coreType : ℕ
  allowTwoSide : Bool
  factionTemplates : ℕ → Option FactionTemplateEntry
  auctionHouses : AuctionHouseStore
  creatureData : ℕ → Option CreatureData
  creatureTemplates : ℕ → Option CreatureTemplate
  hiRange : ℕ
  getNPC : ℕ → Option Creature
  canUnequipItem : Player → Item → Bool
  /-- the deposit of an entry, a sell price, half days and a count -/
  depositProduct : AuctionHouseEntry → ℕ → ℕ → ℕ → ℕ
  auctionTime : ℕ → ℕ

structure AuctionEntry where
  id : ℕ
  houseId : ℕ
  itemGuidLow : ℕ
  itemTemplate : ℕ
  itemCount : ℕ
  owner : ℕ
  startbid : ℕ
  bid : ℕ
  buyout : ℕ
  expireTime : ℕ
  bidder : ℕ
  deposit : ℕ
  auctionHouseEntry : AuctionHouseEntry
  deriving DecidableEq

structure AuctionRow where
  id : ℕ
  houseid : ℕ
  itemguid : ℕ
  itemowner : ℕ
  buyoutprice : ℕ
  time : ℕ
  buyguid : ℕ
  lastbid : ℕ
  startbid : ℕ
  deposit : ℕ
  deriving DecidableEq

def AuctionEntry.saveToDB (a : AuctionEntry) : AuctionRow :=
  ⟨a.id, a.houseId, a.itemGuidLow, a.owner, a.buyout, u32 a.expireTime, a.bidder, a.bid, a.startbid, a.deposit⟩

namespace Server
variable (srv : Server)

def getAuctionsMap (factionTemplateId : ℕ) : House :=
  if srv.allowTwoSide then .neutral
  else
    match srv.factionTemplates factionTemplateId with
    | none => .neutral
    | some entry =>
      if entry.ourMask &&& FACTION_MASK_ALLIANCE ≠ 0 then .alliance
      else if entry.ourMask &&& FACTION_MASK_HORDE ≠ 0 then .horde
      else .neutral

def getAuctionsMapByHouseId (auctionHouseId : ℕ) : House :=
  if srv.allowTwoSide then .neutral
  else if auctionHouseId = AUCTIONHOUSE_ALLIANCE then .alliance
  else if auctionHouseId = AUCTIONHOUSE_HORDE then .horde
  else .neutral

def getAuctionHouseEntry (factionTemplateId : ℕ) : Option AuctionHouseEntry :=
  let houseid :=
    if srv.allowTwoSide then AUCTIONHOUSE_NEUTRAL
    else
      match srv.factionTemplates factionTemplateId with
      | none => AUCTIONHOUSE_NEUTRAL
      | some entry =>
        if entry.ourMask &&& FACTION_MASK_ALLIANCE ≠ 0 then AUCTIONHOUSE_ALLIANCE
        else if entry.ourMask &&& FACTION_MASK_HORDE ≠ 0 then AUCTIONHOUSE_HORDE
        else AUCTIONHOUSE_NEUTRAL
  srv.auctionHouses.lookupEntry houseid

def AH_MINIMUM_DEPOSIT : ℕ := 100

def getAuctionDeposit (entry : AuctionHouseEntry) (time : ℕ) (item : Item) (count : ℕ) : ℕ :=
  let MSV := item.template.sellPrice
  if MSV = 0 then AH_MINIMUM_DEPOSIT
  else
    let deposit := u32 (srv.depositProduct entry MSV (time / 60 / 60 / 12) count)
    if deposit < AH_MINIMUM_DEPOSIT then AH_MINIMUM_DEPOSIT else deposit

def canBeTraded (owner : Player) (i : Item) (mail trade : Bool) : Bool :=
  if i.lootGenerated then false
  else if (!mail || !i.boundAccountWide) && (i.soulBound && (!i.bopTradeable || !trade)) then false
  else if i.isBag && (i.isBagPos || !i.isEmpty) then false
  else if srv.canUnequipItem owner i = false then false
  else if owner.lootGuid = i.guid then false
  else if i.boundByTempEnchant then false
  else if (!mail || !i.boundAccountWide) && i.boundByEnchant then false
  else true

end Server

/-! ### The request -/

structure SellRequest where
  auctioneer : ℕ
  items : List (ℕ × ℕ)
  bid : ℕ
  buyout : ℕ
  etime : ℕ

inductive AuctionError where
  | ok
  | databaseError
  | notEnoughMoney
  | itemNotFound
  deriving DecidableEq

structure World where
  player : Player
  now : ℕ
  auctionId : ℕ
  hiItemGuid : ℕ
  auctions : House → ℕ → Option AuctionEntry
  aitems : ℕ → Option Item
  saved : List AuctionRow
  /-- a record, not data of the server: the auctions that have been added -/
  listed : List (House × AuctionEntry)

/-- What the checks of a request leave: the items with the numbers to sell, the first apart, and a
deposit that the player can pay. -/
structure Sale (w : World) where
  creature : Creature
  auctionHouseEntry : AuctionHouseEntry
  etime : ℕ
  first : Item × ℕ
  others : List (Item × ℕ)
  finalCount : ℕ
  deposit : ℕ
  deposit_le : deposit ≤ w.player.money

def Sale.items {w : World} (s : Sale w) : List (Item × ℕ) := s.first :: s.others

def MAX_AUCTION_ITEMS : ℕ := 160
def MINUTE : ℕ := 60
def MIN_AUCTION_TIME : ℕ := 12 * 60 * 60

namespace Server
variable (srv : Server) (w : World)

/-- The checks of what the packet says. `some none` is a return without an answer. -/
def refusal (request : SellRequest) : Option (Option AuctionError) :=
  if srv.coreType > NODE_TYPE_MASTER then some none
  else if request.items.length > MAX_AUCTION_ITEMS then some (some .databaseError)
  else if ∃ s ∈ request.items, s.1 = 0 ∨ s.2 = 0 ∨ s.2 > 1000 then some none
  else if request.bid = 0 ∨ request.etime = 0 then some none
  else if request.bid > maxMoneyAmount ∨ request.buyout > maxMoneyAmount then some (some .databaseError)
  else none

def unsellable (item : Item) (count itemEntry : ℕ) : Bool :=
  (w.aitems item.guidLow).isSome || !srv.canBeTraded w.player item false false || item.isNotEmptyBag ||
    decide (item.template.flags &&& ITEM_PROTO_FLAG_CONJURED ≠ 0) || decide (item.duration ≠ 0) ||
    decide (item.count < count) || decide (itemEntry ≠ item.template.itemId)

def findItems : ℕ → List (ℕ × ℕ) → Except AuctionError (List (Item × ℕ))
  | _, [] => .ok []
  | itemEntry, (guid, count) :: items =>
    match w.player.inventory.find? guid with
    | none => .error .itemNotFound
    | some item =>
      let itemEntry := if itemEntry = 0 then item.template.itemId else itemEntry
      if srv.unsellable w item count itemEntry then .error .databaseError
      else (findItems itemEntry items).map ((item, count) :: ·)

def checkItems (creature : Creature) (entry : AuctionHouseEntry) (etime : ℕ) (request : SellRequest) :
    List (Item × ℕ) → Except (Option AuctionError) (Sale w)
  | [] => .error (some .databaseError)
  | first :: others =>
    let finalCount := ((first :: others).map Prod.snd).sum
    if finalCount = 0 then .error (some .databaseError)
    else if ¬ (request.items.map Prod.fst).Nodup then .error (some .databaseError)
    else if ∃ s ∈ first :: others, s.1.template.getMaxStackSize < finalCount then .error (some .databaseError)
    else
      let deposit := srv.getAuctionDeposit entry etime first.1 finalCount
      if h : hasEnoughMoney w.player.money deposit = true then
        .ok ⟨creature, entry, etime, first, others, finalCount, deposit, of_decide_eq_true h⟩
      else .error (some .notEnoughMoney)

def checkSale (request : SellRequest) : Except (Option AuctionError) (Sale w) :=
  match srv.refusal request, srv.getNPC request.auctioneer with
  | some answer, _ => .error answer
  | none, none => .error none
  | none, some creature =>
    match srv.getAuctionHouseEntry creature.faction with
    | none => .error none
    | some entry =>
      let etime := u32 (request.etime * MINUTE)
      if etime ≠ MIN_AUCTION_TIME ∧ etime ≠ 2 * MIN_AUCTION_TIME ∧ etime ≠ 4 * MIN_AUCTION_TIME then .error none
      else
        match srv.findItems w 0 request.items with
        | .error answer => .error (some answer)
        | .ok items => srv.checkItems w creature entry etime request items

end Server

/-! ### Listing -/

def Player.setMoney (p : Player) (money : ℕ) (h : money ≤ maxMoneyAmount) : Player :=
  { p with money := money, money_le := h }

theorem Player.setMoney_money (p : Player) (money : ℕ) (h : money ≤ maxMoneyAmount) :
    (p.setMoney money h).money = money := rfl

theorem Player.setMoney_inventory (p : Player) (money : ℕ) (h : money ≤ maxMoneyAmount) :
    (p.setMoney money h).inventory = p.inventory := rfl

theorem Player.modifyMoney_le (p : Player) {amount : ℕ} (h : amount ≤ p.money) :
    (modifyMoney p.money (-toInt32 amount)).2 ≤ maxMoneyAmount := by
  rw [modifyMoney_payCast h p.money_le]
  exact (Nat.sub_le _ _).trans p.money_le

def Player.payDeposit (p : Player) (deposit : ℕ) (h : deposit ≤ p.money) : Player :=
  p.setMoney (modifyMoney p.money (-toInt32 deposit)).2 (p.modifyMoney_le h)

theorem Player.payDeposit_money (p : Player) {deposit : ℕ} (h : deposit ≤ p.money) :
    (p.payDeposit deposit h).money = p.money - deposit := by
  rw [Player.payDeposit, Player.setMoney_money, modifyMoney_payCast h p.money_le]

def takeStack (inventory : KeyedList Item.guid) (s : Item × ℕ) : KeyedList Item.guid :=
  if s.1.count = s.2 then inventory.erase s.1.guid
  else inventory.adjust s.1.guid (fun i => { i with count := i.count - s.2 }) fun _ => rfl

namespace World
variable (w : World)

def setPlayer (p : Player) : World := { w with player := p }

theorem setPlayer_player (p : Player) : (w.setPlayer p).player = p := rfl

theorem setPlayer_listed (p : Player) : (w.setPlayer p).listed = w.listed := rfl

theorem setPlayer_saved (p : Player) : (w.setPlayer p).saved = w.saved := rfl

def setInventory (inventory : KeyedList Item.guid) : World := { w with player := { w.player with inventory := inventory } }

/-- The world after `GenerateAuctionID`, which returns the counter as it was. -/
def generateAuctionID : World := { w with auctionId := u32 (w.auctionId + 1) }

theorem generateAuctionID_player : w.generateAuctionID.player = w.player := rfl

theorem generateAuctionID_listed : w.generateAuctionID.listed = w.listed := rfl

theorem generateAuctionID_saved : w.generateAuctionID.saved = w.saved := rfl

/-- `CloneItem` for the player: the guid is from `GenerateLowGuid`, which ends the process on an overflow. -/
def cloneItem (srv : Server) (item : Item) (count : ℕ) : Option (Option (Item × World)) :=
  if count < 1 then some none
  else if 0xFFFFFFFE ≤ w.hiItemGuid then none
  else
    let low := u32 (w.hiItemGuid + srv.hiRange)
    some (some
      ({ item with
          guid := 0x4000 * 2 ^ 48 + low
          count := min count item.template.getMaxStackSize
          lootGenerated := false
          bopTradeable := false
          isBagPos := false },
        { w with hiItemGuid := low }))

def addAItem (srv : Server) (item : Item) : Option World :=
  if srv.coreType ≠ NODE_TYPE_MASTER then some w
  else if (w.aitems item.guidLow).isSome then none
  else some { w with aitems := Function.update w.aitems item.guidLow (some item) }

def addAuction (srv : Server) (house : House) (a : AuctionEntry) : World :=
  if srv.coreType ≠ NODE_TYPE_MASTER then w
  else
    { w with
      auctions := Function.update w.auctions house (Function.update (w.auctions house) a.id (some a))
      listed := w.listed ++ [(house, a)] }

def saveToDB (srv : Server) (a : AuctionEntry) : World :=
  if srv.coreType ≠ NODE_TYPE_MASTER then w else { w with saved := w.saved ++ [a.saveToDB] }

end World

namespace Server
variable (srv : Server)

def entryFor (request : SellRequest) {w : World} (sale : Sale w) (id houseId : ℕ) (item : Item) : AuctionEntry where
  id := id
  houseId := houseId
  itemGuidLow := item.guidLow
  itemTemplate := item.template.itemId
  itemCount := item.count
  owner := w.player.guidLow
  startbid := request.bid
  bid := 0
  buyout := request.buyout
  expireTime := w.now + u32 (srv.auctionTime sale.etime)
  bidder := 0
  deposit := sale.deposit
  auctionHouseEntry := sale.auctionHouseEntry

/-- Both branches that list the items, from the world `w'` in which the deposit has been paid. -/
def list (request : SellRequest) {w : World} (sale : Sale w) (houseId : ℕ) (w' : World) :
    Option (World × Option AuctionError) :=
  let house := srv.getAuctionsMap sale.creature.faction
  let item := sale.first.1
  if request.items.length = 1 ∧ item.count = sale.first.2 then
    let a := srv.entryFor request sale w.auctionId houseId item
    (w'.addAItem srv item).map fun w' =>
      let w' := w'.addAuction srv house a
      let w' := w'.setInventory (w'.player.inventory.erase item.guid)
      (w'.saveToDB srv a, some .ok)
  else
    (w'.cloneItem srv item sale.finalCount).bind fun
      | none => some (w', some .databaseError)
      | some (newItem, w') =>
        let a := srv.entryFor request sale w.auctionId houseId newItem
        (w'.addAItem srv newItem).map fun w' =>
          let w' := w'.addAuction srv house a
          let w' := w'.setInventory (sale.items.foldl takeStack w'.player.inventory)
          (w'.saveToDB srv a, some .ok)

def paid (w : World) (sale : Sale w) : World :=
  (w.setPlayer (w.player.payDeposit sale.deposit sale.deposit_le)).generateAuctionID

def sell (w : World) (request : SellRequest) (sale : Sale w) : Option (World × Option AuctionError) :=
  let w' := paid w sale
  if srv.allowTwoSide then srv.list request sale AUCTIONHOUSE_NEUTRAL w'
  else
    match srv.creatureData sale.creature.entry with
    | none => some (w', none)
    | some auctioneerData =>
      match srv.creatureTemplates auctioneerData.id with
      | none => some (w', none)
      | some auctioneerInfo =>
        (srv.getAuctionHouseEntry auctioneerInfo.faction).bind fun entry =>
          srv.list request sale (entry.houseId % 2 ^ 8) w'

def handleAuctionSellItem (w : World) (request : SellRequest) : Option (World × Option AuctionError) :=
  match srv.checkSale w request with
  | .error answer => some (w, answer)
  | .ok sale => srv.sell w request sale

end Server

/-! ### A server with two auctioneers -/

def sampleHouses (cutPercent : ℕ → ℕ) : AuctionHouseStore where
  lookupEntry := fun id => if id = 2 ∨ id = 6 ∨ id = 7 then some ⟨id, 5, cutPercent id⟩ else none
  indexed := by
    intro id entry h
    split at h
    · obtain rfl := Option.some.inj h
      rfl
    · cases h

def sampleServer (spawns : ℕ → Option CreatureData) : Server where
  coreType := NODE_TYPE_MASTER
  allowTwoSide := false
  factionTemplates := fun id => if id = 12 then some ⟨3⟩ else if id = 2 then some ⟨5⟩ else none
  auctionHouses := sampleHouses fun _ => 5
  creatureData := spawns
  creatureTemplates := fun id => if id = 8670 then some ⟨12⟩ else if id = 9858 then some ⟨474⟩ else none
  hiRange := 1
  getNPC := fun guid => if guid = 70 then some ⟨8670, 12⟩ else if guid = 71 then some ⟨9858, 474⟩ else none
  canUnequipItem := fun _ _ => true
  depositProduct := fun _ sellPrice halfDays count => sellPrice * halfDays * count
  auctionTime := fun etime => etime

def sampleCloth (guid count : ℕ) : Item :=
  ⟨guid, ⟨2589, 0, 20, 13⟩, count, 0, false, false, false, false, false, false, false, false, false⟩

def sampleWorld : World where
  player := ⟨1, 10000, by decide, 0, ⟨[sampleCloth 101 20, sampleCloth 102 8], by decide⟩⟩
  now := 1000
  auctionId := 1
  hiItemGuid := 200
  auctions := fun _ _ => none
  aitems := fun _ => none
  saved := []
  listed := []

def sampleRequest (auctioneer : ℕ) : SellRequest := ⟨auctioneer, [(101, 5), (102, 8)], 50, 0, 1440⟩

/-! ### What the checks say -/

namespace Server

variable {srv : Server} {w : World} {request : SellRequest}

theorem le_count_of_sellable {item : Item} {count itemEntry : ℕ}
    (h : ¬ srv.unsellable w item count itemEntry = true) : count ≤ item.count := by
  simp only [unsellable, Bool.or_eq_true, not_or] at h
  simpa using h.1.2

variable {found : List (Item × ℕ)}

theorem findItems_ok {itemEntry : ℕ} {items : List (ℕ × ℕ)}
    (h : srv.findItems w itemEntry items = .ok found) :
    found.map (fun s => (s.1.guid, s.2)) = items ∧
      ∀ s ∈ found, w.player.inventory.find? s.1.guid = some s.1 ∧ s.2 ≤ s.1.count := by
  induction items generalizing itemEntry found with
  | nil =>
    obtain rfl := Except.ok.inj h
    exact ⟨rfl, fun s hs => absurd hs List.not_mem_nil⟩
  | cons s items ih =>
    obtain ⟨guid, count⟩ := s
    rw [findItems] at h
    cases hitem : w.player.inventory.find? guid with
    | none =>
      rw [hitem] at h
      cases h
    | some item =>
      rw [hitem] at h
      dsimp only at h
      generalize (if itemEntry = 0 then item.template.itemId else itemEntry) = itemEntry at h
      split at h
      · cases h
      next hfits =>
        cases hrest : srv.findItems w itemEntry items with
        | error e =>
          rw [hrest] at h
          cases h
        | ok rest =>
          rw [hrest] at h
          obtain rfl := Except.ok.inj h
          obtain ⟨hmap, hall⟩ := ih hrest
          have hguid : item.guid = guid := ((KeyedList.find?_eq_some_iff ..).mp hitem).2
          refine ⟨by rw [List.map_cons, hmap, hguid], fun s hs => ?_⟩
          rcases List.mem_cons.mp hs with rfl | hs
          · exact ⟨hguid ▸ hitem, le_count_of_sellable hfits⟩
          · exact hall s hs

structure Checked (srv : Server) (request : SellRequest) {w : World} (sale : Sale w) : Prop where
  creature : srv.getNPC request.auctioneer = some sale.creature
  entry : srv.getAuctionHouseEntry sale.creature.faction = some sale.auctionHouseEntry
  etime : sale.etime = u32 (request.etime * MINUTE)
  items : sale.items.map (fun s => (s.1.guid, s.2)) = request.items
  found : ∀ s ∈ sale.items, w.player.inventory.find? s.1.guid = some s.1 ∧ s.2 ≤ s.1.count
  nodup : (request.items.map Prod.fst).Nodup
  finalCount : sale.finalCount = (request.items.map Prod.snd).sum
  pos : 0 < sale.finalCount
  fits : sale.finalCount ≤ sale.first.1.template.getMaxStackSize
  deposit : AH_MINIMUM_DEPOSIT ≤ sale.deposit

theorem getAuctionDeposit_ge (srv : Server) (entry : AuctionHouseEntry) (time : ℕ) (item : Item) (count : ℕ) :
    AH_MINIMUM_DEPOSIT ≤ srv.getAuctionDeposit entry time item count := by
  rw [getAuctionDeposit]
  dsimp only
  split
  · exact Nat.le_refl _
  · split
    · exact Nat.le_refl _
    next h => exact Nat.not_lt.mp h

theorem checkItems_ok {creature : Creature} {entry : AuctionHouseEntry} {sale : Sale w}
    (hcreature : srv.getNPC request.auctioneer = some creature)
    (hentry : srv.getAuctionHouseEntry creature.faction = some entry)
    (hfound : srv.findItems w 0 request.items = .ok found)
    (h : srv.checkItems w creature entry (u32 (request.etime * MINUTE)) request found = .ok sale) :
    srv.Checked request sale := by
  obtain ⟨hmap, hall⟩ := findItems_ok hfound
  cases found with
  | nil => cases h
  | cons first others =>
    simp only [checkItems] at h
    split at h
    · cases h
    next hpos =>
    split at h
    · cases h
    next hnodup =>
    split at h
    · cases h
    next hfits =>
    split at h
    next hmoney =>
      obtain rfl := Except.ok.inj h
      exact {
        creature := hcreature
        entry := hentry
        etime := rfl
        items := hmap
        found := hall
        nodup := Decidable.not_not.mp hnodup
        finalCount := by
          show ((first :: others).map Prod.snd).sum = _
          rw [← hmap, List.map_map]
          rfl
        pos := Nat.pos_of_ne_zero hpos
        fits := Nat.not_lt.mp fun hlt => hfits ⟨first, List.mem_cons_self, hlt⟩
        deposit := getAuctionDeposit_ge .. }
    · cases h

theorem checkSale_ok {sale : Sale w} (h : srv.checkSale w request = .ok sale) : srv.Checked request sale := by
  rw [checkSale] at h
  split at h
  · cases h
  · cases h
  next creature _ hcreature =>
    split at h
    · cases h
    next entry hentry =>
      dsimp only at h
      split at h
      · cases h
      · split at h
        · cases h
        next found hfound => exact checkItems_ok hcreature hentry hfound h

end Server

end HysteriaCore.Auctions.Sales

import HysteriaCore.Auctions.Refusals

/-!
# Auctions after a restart

`LoadAuctions` puts every row of `auctionhouse` into the map of its house id, and looks its
`AuctionHouseEntry` up with that id in place of a faction template.
-/

namespace HysteriaCore.Auctions.Sales
open Lib Objects

structure ItemRow where
  guid : ℕ
  itemEntry : ℕ
  count : ℕ
  deriving DecidableEq

structure Database where
  auctions : KeyedList AuctionRow.id
  items : KeyedList ItemRow.guid

namespace Server
variable (srv : Server) (known : ItemRow → Bool) (db : Database)

/-- Whether `LoadAuctionItems` has loaded an item: those of the auctions, except the ones that are not
`known` (no template, or `LoadFromDB` fails). -/
def hasAItem (guid : ℕ) : Bool :=
  db.auctions.rows.any (fun r => decide (r.itemguid = guid)) && (db.items.find? guid).any known

def readFields (row : AuctionRow) (item : ItemRow) (entry : AuctionHouseEntry) : AuctionEntry where
  id := row.id
  houseId := row.houseid
  itemGuidLow := row.itemguid
  itemTemplate := item.itemEntry
  itemCount := item.count
  owner := row.itemowner
  startbid := row.startbid
  bid := row.lastbid
  buyout := row.buyoutprice
  expireTime := row.time
  bidder := row.buyguid
  deposit := row.deposit
  auctionHouseEntry := entry

def loadFromDB (row : AuctionRow) (item : ItemRow) : Option AuctionEntry :=
  match srv.getAuctionHouseEntry row.houseid with
  | none => none
  | some entry => if hasAItem known db row.itemguid = false then none else some (readFields row item entry)

def loadEntry (row : AuctionRow) : Option AuctionEntry :=
  (db.items.find? row.itemguid).bind (srv.loadFromDB known db row)

def addLoaded (maps : House → ℕ → Option AuctionEntry) (a : AuctionEntry) : House → ℕ → Option AuctionEntry :=
  let house := srv.getAuctionsMapByHouseId a.houseId
  Function.update maps house (Function.update (maps house) a.id (some a))

def loadRow (maps : House → ℕ → Option AuctionEntry) (row : AuctionRow) : House → ℕ → Option AuctionEntry :=
  match srv.loadEntry known db row with
  | none => maps
  | some a => srv.addLoaded maps a

def loadAuctions : House → ℕ → Option AuctionEntry :=
  if srv.coreType ≠ NODE_TYPE_MASTER then fun _ _ => none
  else db.auctions.rows.foldl (srv.loadRow known db) fun _ _ => none

end Server

/-! ### Houses and their ids -/

def houseIdOf : House → ℕ
  | .alliance => AUCTIONHOUSE_ALLIANCE
  | .horde => AUCTIONHOUSE_HORDE
  | .neutral => AUCTIONHOUSE_NEUTRAL

theorem houseIdOf_injective : Function.Injective houseIdOf := by
  intro h h' heq
  cases h <;> cases h' <;> first | rfl | exact absurd heq (by decide)

theorem houseIdOf_lt (h : House) : houseIdOf h % 2 ^ 8 = houseIdOf h := by
  cases h <;> rfl

namespace Server

variable {srv : Server} {known : ItemRow → Bool} {db : Database}

theorem getAuctionsMap_twoSide (htwo : srv.allowTwoSide = true) (faction : ℕ) :
    srv.getAuctionsMap faction = .neutral := by
  rw [getAuctionsMap, if_pos htwo]

theorem getAuctionHouseEntry_eq (srv : Server) (faction : ℕ) :
    srv.getAuctionHouseEntry faction = srv.auctionHouses.lookupEntry (houseIdOf (srv.getAuctionsMap faction)) := by
  rw [getAuctionHouseEntry, getAuctionsMap]
  by_cases htwo : srv.allowTwoSide = true
  · rw [if_pos htwo, if_pos htwo]
    rfl
  · rw [if_neg htwo, if_neg htwo]
    cases srv.factionTemplates faction with
    | none => rfl
    | some entry =>
      dsimp only
      split
      · rfl
      · split <;> rfl

variable {entry : AuctionHouseEntry}

theorem getAuctionHouseEntry_houseId {faction : ℕ}
    (h : srv.getAuctionHouseEntry faction = some entry) : entry.houseId = houseIdOf (srv.getAuctionsMap faction) := by
  rw [getAuctionHouseEntry_eq] at h
  exact srv.auctionHouses.indexed _ _ h

theorem getAuctionsMapByHouseId_eq (hapart : srv.allowTwoSide = false) (h : House) :
    srv.getAuctionsMapByHouseId (houseIdOf h) = h := by
  rw [getAuctionsMapByHouseId, if_neg (by simp [hapart])]
  cases h <;> rfl

/-! ### The loop over the rows -/

variable {row : AuctionRow} {maps : House → ℕ → Option AuctionEntry}

theorem loadFromDB_of_hasAItem (h : hasAItem known db row.itemguid = true) (item : ItemRow) :
    srv.loadFromDB known db row item = (srv.getAuctionHouseEntry row.houseid).map (readFields row item) := by
  rw [loadFromDB]
  cases srv.getAuctionHouseEntry row.houseid with
  | none => rfl
  | some entry => exact if_neg (by simp [h])

theorem loadEntry_id {a : AuctionEntry} (h : srv.loadEntry known db row = some a) : a.id = row.id := by
  obtain ⟨item, -, hload⟩ := Option.bind_eq_some_iff.mp h
  rw [loadFromDB] at hload
  split at hload
  · cases hload
  · split at hload
    · cases hload
    · obtain rfl := Option.some.inj hload
      rfl

theorem addLoaded_apply (srv : Server) (maps : House → ℕ → Option AuctionEntry) (a : AuctionEntry) (house : House)
    (id : ℕ) : srv.addLoaded maps a house id =
      if house = srv.getAuctionsMapByHouseId a.houseId ∧ id = a.id then some a else maps house id := by
  rw [addLoaded]
  by_cases hhouse : house = srv.getAuctionsMapByHouseId a.houseId
  · rw [hhouse, Function.update_self, Function.update_apply]
    simp
  · rw [Function.update_of_ne hhouse, if_neg fun h => hhouse h.1]

theorem loadRow_other {id : ℕ} (hid : row.id ≠ id) (house : House) :
    srv.loadRow known db maps row house id = maps house id := by
  rw [loadRow]
  cases hload : srv.loadEntry known db row with
  | none => rfl
  | some a =>
    have hne : id ≠ a.id := fun heq => hid ((loadEntry_id hload).symm.trans heq.symm)
    exact (addLoaded_apply ..).trans (if_neg fun h => hne h.2)

theorem loadRow_self (house : House) (hempty : maps house row.id = none) :
    srv.loadRow known db maps row house row.id =
      (srv.loadEntry known db row).filter fun a => srv.getAuctionsMapByHouseId a.houseId = house := by
  rw [loadRow]
  cases hload : srv.loadEntry known db row with
  | none => exact hempty
  | some a =>
    have hid := loadEntry_id hload
    refine (addLoaded_apply ..).trans ?_
    by_cases hhouse : house = srv.getAuctionsMapByHouseId a.houseId
    · rw [if_pos ⟨hhouse, hid.symm⟩, Option.filter_some, if_pos (by simp [hhouse])]
    · rw [if_neg fun h => hhouse h.1, hempty, Option.filter_some, if_neg (by simpa using Ne.symm hhouse)]

theorem foldl_loadRow_other {rows : List AuctionRow} {id : ℕ} (hid : id ∉ rows.map AuctionRow.id) (house : House) :
    rows.foldl (srv.loadRow known db) maps house id = maps house id := by
  induction rows generalizing maps with
  | nil => rfl
  | cons row rows ih =>
    rw [List.map_cons, List.mem_cons, not_or] at hid
    rw [List.foldl_cons, ih hid.2, loadRow_other (Ne.symm hid.1)]

theorem foldl_loadRow {rows : List AuctionRow} (hdistinct : (rows.map AuctionRow.id).Nodup) (hrow : row ∈ rows)
    (house : House) (hempty : maps house row.id = none) :
    rows.foldl (srv.loadRow known db) maps house row.id =
      (srv.loadEntry known db row).filter fun a => srv.getAuctionsMapByHouseId a.houseId = house := by
  induction rows generalizing maps with
  | nil => exact absurd hrow List.not_mem_nil
  | cons first rows ih =>
    rw [List.map_cons, List.nodup_cons] at hdistinct
    rw [List.foldl_cons]
    rcases List.mem_cons.mp hrow with rfl | hrow
    · rw [foldl_loadRow_other hdistinct.1, loadRow_self house hempty]
    · have hne : first.id ≠ row.id := fun heq => hdistinct.1 (heq ▸ List.mem_map_of_mem hrow)
      apply ih hdistinct.2 hrow
      rw [loadRow_other hne, hempty]

/-! ### An auction and its row -/

/-- The auctioneer's house is the one of the template that the spawn table gives, and the one of the
faction template whose number is the id of the house. -/
def KeepsHouse (srv : Server) (creature : Creature) : Prop :=
  srv.allowTwoSide = true ∨
    (∃ info, srv.auctioneerInfo creature = some info ∧
      srv.getAuctionsMap info.faction = srv.getAuctionsMap creature.faction) ∧
    srv.getAuctionsMap (houseIdOf (srv.getAuctionsMap creature.faction)) = srv.getAuctionsMap creature.faction

theorem lookup_house_iff {house house' : House}
    (hentry : srv.auctionHouses.lookupEntry (houseIdOf house) = some entry) :
    srv.auctionHouses.lookupEntry (houseIdOf house') = some entry ↔ house' = house := by
  constructor
  · intro h
    apply houseIdOf_injective
    rw [← srv.auctionHouses.indexed _ _ h, ← srv.auctionHouses.indexed _ _ hentry]
  · rintro rfl
    exact hentry

theorem keepsHouse_iff {creature : Creature} {houseId : ℕ}
    (hentry : srv.getAuctionHouseEntry creature.faction = some entry) (hhouse : srv.HasHouseId creature houseId) :
    srv.getAuctionHouseEntry houseId = some entry ∧
        srv.getAuctionsMapByHouseId houseId = srv.getAuctionsMap creature.faction ↔ srv.KeepsHouse creature := by
  rcases hhouse with ⟨htwo, rfl⟩ | ⟨hapart, info, infoEntry, hinfo, hinfoEntry, rfl⟩
  · refine iff_of_true ⟨?_, ?_⟩ (.inl htwo)
    · rw [getAuctionHouseEntry_eq, getAuctionsMap_twoSide htwo] at hentry ⊢
      exact hentry
    · rw [getAuctionsMapByHouseId, if_pos htwo, getAuctionsMap_twoSide htwo]
  · rw [getAuctionHouseEntry_eq] at hentry
    rw [getAuctionHouseEntry_houseId hinfoEntry, houseIdOf_lt, getAuctionsMapByHouseId_eq hapart,
      getAuctionHouseEntry_eq, lookup_house_iff hentry]
    constructor
    · rintro ⟨hagain, hsame⟩
      rw [hsame] at hagain
      exact .inr ⟨⟨info, hinfo, hsame⟩, hagain⟩
    · rintro (htwo | ⟨⟨info', hinfo', hsame⟩, hagain⟩)
      · rw [hapart] at htwo
        cases htwo
      · obtain rfl := Option.some.inj (hinfo.symm.trans hinfo')
        rw [hsame]
        exact ⟨hagain, rfl⟩

variable {w w' : World} {request : SellRequest} {answer : Option AuctionError} {house : House} {a b : AuctionEntry}

theorem listed_of_handle (h : srv.handleAuctionSellItem w request = some (w', answer))
    (hlisted : w'.listed = w.listed ++ [(house, a)]) (hsaved : w'.saved = w.saved ++ [row]) :
    srv.coreType = NODE_TYPE_MASTER ∧ ∃ (sale : Sale w) (houseId : ℕ) (item : Item), srv.Checked request sale ∧
      srv.HasHouseId sale.creature houseId ∧ house = srv.getAuctionsMap sale.creature.faction ∧
      a = srv.entryFor request sale w.auctionId houseId item ∧ row = a.saveToDB := by
  have hnothing : w'.listed ≠ w.listed := by
    rw [hlisted]
    simp
  rw [handleAuctionSellItem] at h
  split at h
  · obtain ⟨rfl, -⟩ := Prod.mk.inj (Option.some.inj h)
    exact absurd rfl hnothing
  next sale hsale =>
    have hchecked := checkSale_ok hsale
    rcases sell_cases h with ⟨-, -, rfl⟩ | ⟨houseId, hhouse, hlist⟩
    · exact absurd (paid_listed sale) hnothing
    · by_cases hmaster : srv.coreType = NODE_TYPE_MASTER
      · obtain ⟨item, hlists⟩ := list_master hmaster hchecked hlist
        have hboth := hlists.listed
        rw [paid_listed, hlisted] at hboth
        obtain ⟨rfl, rfl⟩ := Prod.mk.inj (List.singleton_inj.mp (List.append_inj_right' hboth rfl))
        have hrows := hlists.saved
        rw [paid_saved, hsaved] at hrows
        have hrow := List.singleton_inj.mp (List.append_inj_right' hrows rfl)
        exact ⟨hmaster, sale, houseId, item, hchecked, hhouse, rfl, rfl, hrow⟩
      · exact absurd ((list_other hmaster hchecked hlist).1.trans (paid_listed sale)) hnothing

structure Same (a b : AuctionEntry) : Prop where
  auctionHouseEntry : b.auctionHouseEntry = a.auctionHouseEntry
  owner : b.owner = a.owner
  bidder : b.bidder = a.bidder
  startbid : b.startbid = a.startbid
  bid : b.bid = a.bid
  buyout : b.buyout = a.buyout
  deposit : b.deposit = a.deposit
  expireTime : b.expireTime = a.expireTime

theorem loadAuctions_saved (hmaster : srv.coreType = NODE_TYPE_MASTER) (hrow : a.saveToDB ∈ db.auctions)
    {item : ItemRow} (hitem : db.items.find? a.itemGuidLow = some item) (hknown : known item = true) :
    srv.loadAuctions known db house a.id =
      ((srv.getAuctionHouseEntry a.houseId).map (readFields a.saveToDB item)).filter
        fun b => srv.getAuctionsMapByHouseId b.houseId = house := by
  have hthere : hasAItem known db a.itemGuidLow = true := by
    rw [hasAItem, hitem, Option.any_some, hknown, Bool.and_true, List.any_eq_true]
    exact ⟨_, hrow, decide_eq_true rfl⟩
  have hload : srv.loadEntry known db a.saveToDB =
      (srv.getAuctionHouseEntry a.houseId).map (readFields a.saveToDB item) := by
    have hbind : srv.loadEntry known db a.saveToDB = srv.loadFromDB known db a.saveToDB item :=
      congrArg (Option.bind · (srv.loadFromDB known db a.saveToDB)) hitem
    rw [hbind, loadFromDB_of_hasAItem hthere]
    rfl
  rw [loadAuctions, if_neg (not_not.mpr hmaster), ← hload]
  exact foldl_loadRow db.auctions.distinct hrow house rfl

theorem same_loaded_iff (hmaster : srv.coreType = NODE_TYPE_MASTER) (hrow : a.saveToDB ∈ db.auctions)
    {item : ItemRow} (hitem : db.items.find? a.itemGuidLow = some item) (hknown : known item = true) :
    (∃ b, srv.loadAuctions known db house a.id = some b ∧ Same a b) ↔
      (srv.getAuctionHouseEntry a.houseId = some a.auctionHouseEntry ∧
        srv.getAuctionsMapByHouseId a.houseId = house) ∧ a.expireTime < 2 ^ 32 := by
  rw [loadAuctions_saved hmaster hrow hitem hknown]
  constructor
  · rintro ⟨b, hb, hsame⟩
    obtain ⟨hmap, hhouse⟩ := Option.filter_eq_some_iff.mp hb
    obtain ⟨entry, hentry, rfl⟩ := Option.map_eq_some_iff.mp hmap
    obtain rfl : entry = a.auctionHouseEntry := hsame.auctionHouseEntry
    have htime : u32 a.expireTime = a.expireTime := hsame.expireTime
    refine ⟨⟨hentry, of_decide_eq_true hhouse⟩, ?_⟩
    rw [← htime]
    exact u32_lt _
  · rintro ⟨⟨hentry, hhouse⟩, htime⟩
    refine ⟨readFields a.saveToDB item a.auctionHouseEntry, ?_, ⟨rfl, rfl, rfl, rfl, rfl, rfl, rfl, u32_of_lt htime⟩⟩
    rw [hentry, Option.map_some, Option.filter_some]
    exact if_pos (decide_eq_true hhouse)

def EndsInTime (srv : Server) (w : World) (request : SellRequest) : Prop :=
  w.now + u32 (srv.auctionTime (u32 (request.etime * MINUTE))) < 2 ^ 32

/-- An auction survives exactly when its auctioneer's house is found again. -/
theorem auctionSurvives_iff (h : srv.handleAuctionSellItem w request = some (w', answer))
    (hlisted : w'.listed = w.listed ++ [(house, a)]) (hsaved : w'.saved = w.saved ++ [row]) (hrow : row ∈ db.auctions)
    {item : ItemRow} (hitem : db.items.find? a.itemGuidLow = some item) (hknown : known item = true) :
    (∃ b, srv.loadAuctions known db house a.id = some b ∧ Same a b) ↔
      (∃ creature, srv.getNPC request.auctioneer = some creature ∧ srv.KeepsHouse creature) ∧
        srv.EndsInTime w request := by
  obtain ⟨hmaster, sale, houseId, soldItem, hchecked, hhouse, rfl, rfl, rfl⟩ := listed_of_handle h hlisted hsaved
  rw [same_loaded_iff hmaster hrow hitem hknown]
  refine and_congr ?_ ?_
  · refine (keepsHouse_iff hchecked.entry hhouse).trans ?_
    rw [hchecked.creature]
    simp
  · show w.now + u32 (srv.auctionTime sale.etime) < 2 ^ 32 ↔ _
    rw [hchecked.etime]
    rfl

def savedOnly (a : AuctionEntry) : Database where
  auctions := ⟨[a.saveToDB], by simp⟩
  items := ⟨[⟨a.itemGuidLow, a.itemTemplate, a.itemCount⟩], by simp⟩

theorem savedOnly_item (a : AuctionEntry) :
    (savedOnly a).items.find? a.itemGuidLow = some ⟨a.itemGuidLow, a.itemTemplate, a.itemCount⟩ := by
  rw [KeyedList.find?_eq_some_iff]
  exact ⟨List.mem_singleton.mpr rfl, rfl⟩

def sampleAuction (houseId : ℕ) : AuctionEntry :=
  ⟨1, houseId, 201, 2589, 13, 1, 50, 0, 0, 87400, 0, 338, ⟨houseId, 5, 5⟩⟩

theorem auctionSurvives_iff_neutral : ∃ b,
    (sampleServer fun guid => some ⟨guid⟩).loadAuctions (fun _ => true) (savedOnly (sampleAuction 7)) .neutral 1 =
      some b ∧ Same (sampleAuction 7) b := by
  have hlists : ((sampleServer fun guid => some ⟨guid⟩).handleAuctionSellItem sampleWorld (sampleRequest 71)).any
      (fun r => r.1.listed = [(.neutral, sampleAuction 7)] ∧ r.1.saved = [(sampleAuction 7).saveToDB]) = true := by
    decide +kernel
  obtain ⟨r, hr, htest⟩ := (Option.any_eq_true ..).mp hlists
  obtain ⟨w', answer⟩ := r
  obtain ⟨hlisted, hsaved⟩ := of_decide_eq_true htest
  have hends : (sampleServer fun guid => some ⟨guid⟩).EndsInTime sampleWorld (sampleRequest 71) := by
    unfold EndsInTime
    decide +kernel
  exact (auctionSurvives_iff hr hlisted hsaved (List.mem_singleton.mpr rfl) (savedOnly_item _) rfl).mpr
    ⟨⟨⟨9858, 474⟩, rfl, .inr ⟨⟨⟨474⟩, rfl, rfl⟩, rfl⟩⟩, hends⟩

theorem alliance_auction_of_horde : ¬ ∀ (srv : Server) (known : ItemRow → Bool) (db : Database) (w w' : World)
    (request : SellRequest) (answer : Option AuctionError) (house : House) (a : AuctionEntry) (row : AuctionRow)
    (item : ItemRow), srv.handleAuctionSellItem w request = some (w', answer) →
      w'.listed = w.listed ++ [(house, a)] → w'.saved = w.saved ++ [row] → row ∈ db.auctions →
      db.items.find? a.itemGuidLow = some item → known item = true →
      ∃ b, srv.loadAuctions known db house a.id = some b ∧ Same a b := by
  intro hall
  have hlists : ((sampleServer fun guid => some ⟨guid⟩).handleAuctionSellItem sampleWorld (sampleRequest 70)).any
      (fun r => r.1.listed = [(.alliance, sampleAuction 2)] ∧ r.1.saved = [(sampleAuction 2).saveToDB]) = true := by
    decide +kernel
  obtain ⟨r, hr, htest⟩ := (Option.any_eq_true ..).mp hlists
  obtain ⟨w', answer⟩ := r
  obtain ⟨hlisted, hsaved⟩ := of_decide_eq_true htest
  obtain ⟨hentry, -⟩ := ((same_loaded_iff rfl (List.mem_singleton.mpr rfl) (savedOnly_item _) rfl).mp
    (hall _ (fun _ => true) (savedOnly _) _ _ _ _ _ _ _ _ hr hlisted hsaved (List.mem_singleton.mpr rfl)
      (savedOnly_item _) rfl)).1
  have hhorde : (sampleServer fun guid => some ⟨guid⟩).getAuctionHouseEntry (sampleAuction 2).houseId =
      some ⟨6, 5, 5⟩ := rfl
  exact absurd (hhorde.symm.trans hentry) (by decide)

end Server

end HysteriaCore.Auctions.Sales

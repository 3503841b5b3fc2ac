import HysteriaCore.Auctions.SellItem

/-!
# What a sale costs

A sale that passes the checks pays the deposit before the server has found the house of the
auctioneer. Where it does not find it, the deposit is gone and nothing is listed.
-/

namespace HysteriaCore.Auctions.Sales
open Lib Objects

/-! ### Taking the stacks -/

def leftOf (sold : List (ℕ × ℕ)) (item : Item) : Option Item :=
  match sold.lookup item.guid with
  | none => some item
  | some count => if item.count = count then none else some { item with count := item.count - count }

section Left

variable {item : Item} {guid count : ℕ} {sold : List (ℕ × ℕ)}

theorem leftOf_self (h : item.guid = guid) :
    leftOf ((guid, count) :: sold) item =
      if item.count = count then none else some { item with count := item.count - count } := by
  simp only [leftOf, List.lookup_cons, h, beq_self_eq_true]

theorem leftOf_ne (h : item.guid ≠ guid) : leftOf ((guid, count) :: sold) item = leftOf sold item := by
  have hkey : (item.guid == guid) = false := by simpa using h
  simp only [leftOf, List.lookup_cons, hkey]

theorem leftOf_absent (h : item.guid ∉ sold.map Prod.fst) : leftOf sold item = some item := by
  have hnone : sold.lookup item.guid = none := by
    rw [List.lookup_eq_none_iff]
    intro s hs
    have hne : item.guid ≠ s.1 := fun heq => h (heq ▸ List.mem_map_of_mem hs)
    simpa using hne
  rw [leftOf, hnone]

theorem leftOf_cons (h : guid ∉ sold.map Prod.fst) (item : Item) :
    (leftOf [(guid, count)] item).bind (leftOf sold) = leftOf ((guid, count) :: sold) item := by
  by_cases hguid : item.guid = guid
  · rw [leftOf_self hguid, leftOf_self hguid]
    by_cases hall : item.count = count
    · rw [if_pos hall]
      rfl
    · rw [if_neg hall, Option.bind_some]
      apply leftOf_absent
      rw [← hguid] at h
      exact h
  · rw [leftOf_ne hguid, leftOf_ne hguid, leftOf_absent (by simp)]
    rfl

end Left

section Taking

variable {inventory : KeyedList Item.guid}

theorem find?_takeStack {s : Item × ℕ} (hs : inventory.find? s.1.guid = some s.1) (guid : ℕ) :
    (takeStack inventory s).find? guid = (inventory.find? guid).bind (leftOf [(s.1.guid, s.2)]) := by
  rw [takeStack]
  by_cases hguid : guid = s.1.guid
  · subst hguid
    rw [hs, Option.bind_some, leftOf_self rfl]
    by_cases hall : s.1.count = s.2
    · rw [if_pos hall, if_pos hall, KeyedList.find?_erase, if_pos rfl]
    · rw [if_neg hall, if_neg hall, KeyedList.find?_adjust, hs, Option.map_some, if_pos rfl]
  · have hsame : (inventory.find? guid).bind (leftOf [(s.1.guid, s.2)]) = inventory.find? guid := by
      cases hfind : inventory.find? guid with
      | none => rfl
      | some item =>
        have hitem := ((KeyedList.find?_eq_some_iff ..).mp hfind).2
        rw [Option.bind_some, leftOf_absent]
        simpa [hitem] using hguid
    rw [hsame]
    by_cases hall : s.1.count = s.2
    · rw [if_pos hall, KeyedList.find?_erase, if_neg hguid]
    · rw [if_neg hall, KeyedList.find?_adjust]
      cases inventory.find? guid with
      | none => rfl
      | some item => rw [Option.map_some, if_neg hguid]

theorem find?_takeStacks {items : List (Item × ℕ)} (hnodup : (items.map fun s => s.1.guid).Nodup)
    (hfound : ∀ s ∈ items, inventory.find? s.1.guid = some s.1) (guid : ℕ) :
    (items.foldl takeStack inventory).find? guid =
      (inventory.find? guid).bind (leftOf (items.map fun s => (s.1.guid, s.2))) := by
  induction items generalizing inventory with
  | nil =>
    cases hfind : inventory.find? guid with
    | none =>
      rw [List.foldl_nil, hfind]
      rfl
    | some item =>
      rw [List.foldl_nil, hfind]
      rfl
  | cons s items ih =>
    rw [List.map_cons, List.nodup_cons] at hnodup
    have hhead := hfound s List.mem_cons_self
    have habsent : s.1.guid ∉ (items.map fun s => (s.1.guid, s.2)).map Prod.fst := by
      rw [List.map_map]
      exact hnodup.1
    have hrest : ∀ s' ∈ items, (takeStack inventory s).find? s'.1.guid = some s'.1 := by
      intro s' hs'
      have hne : s'.1.guid ≠ s.1.guid := fun heq => hnodup.1 (heq ▸ List.mem_map_of_mem hs')
      rw [find?_takeStack hhead, hfound s' (List.mem_cons_of_mem _ hs'), Option.bind_some, leftOf_ne hne]
      exact leftOf_absent (by simp)
    rw [List.foldl_cons, ih hnodup.2 hrest, find?_takeStack hhead, Option.bind_assoc]
    congr 1
    funext item
    exact leftOf_cons habsent item

end Taking

/-! ### Listing the items -/

namespace Server

variable {srv : Server} {w w' w'' : World} {request : SellRequest} {sale : Sale w} {houseId : ℕ}
  {answer : Option AuctionError}

/-- An auction of `item` for the stacks of the sale, which have left the inventory. -/
structure Lists (srv : Server) (request : SellRequest) {w : World} (sale : Sale w) (houseId : ℕ) (item : Item)
    (w' w'' : World) : Prop where
  count : item.count = sale.finalCount
  listed : w''.listed = w'.listed ++
    [(srv.getAuctionsMap sale.creature.faction, srv.entryFor request sale w.auctionId houseId item)]
  saved : w''.saved = w'.saved ++ [(srv.entryFor request sale w.auctionId houseId item).saveToDB]
  aitem : w''.aitems item.guidLow = some item
  inventory : w''.player.inventory = sale.items.foldl takeStack w'.player.inventory

variable {item : Item}

theorem addAItem_eq (h : w'.addAItem srv item = some w'') :
    w''.player = w'.player ∧ w''.listed = w'.listed ∧ w''.saved = w'.saved ∧
      (srv.coreType = NODE_TYPE_MASTER → w''.aitems item.guidLow = some item) := by
  rw [World.addAItem] at h
  split at h
  next hother =>
    obtain rfl := Option.some.inj h
    exact ⟨rfl, rfl, rfl, fun hmaster => absurd hmaster hother⟩
  · split at h
    · cases h
    · obtain rfl := Option.some.inj h
      exact ⟨rfl, rfl, rfl, fun _ => Function.update_self ..⟩

theorem cloneItem_eq {item newItem : Item} {count : ℕ}
    (h : w'.cloneItem srv item count = some (some (newItem, w''))) :
    newItem.count = min count item.template.getMaxStackSize ∧ w''.player = w'.player ∧ w''.listed = w'.listed ∧
      w''.saved = w'.saved := by
  rw [World.cloneItem] at h
  split at h
  · cases h
  · split at h
    · cases h
    · obtain ⟨rfl, rfl⟩ := Prod.mk.inj (Option.some.inj (Option.some.inj h))
      exact ⟨rfl, rfl, rfl, rfl⟩

theorem cloneItem_ne_null {count : ℕ} (h : 0 < count) : w'.cloneItem srv item count ≠ some none := by
  rw [World.cloneItem, if_neg (by omega)]
  split
  · exact fun h => by cases h
  · exact fun h => by cases h

theorem addAuction_player (srv : Server) (w' : World) (house : House) (a : AuctionEntry) :
    (w'.addAuction srv house a).player = w'.player := by
  rw [World.addAuction]
  split <;> rfl

theorem saveToDB_player (srv : Server) (w' : World) (a : AuctionEntry) :
    (w'.saveToDB srv a).player = w'.player := by
  rw [World.saveToDB]
  split <;> rfl

/-- The end of both ways to list an item: `inventory` is what is left of the player's. -/
def enter (srv : Server) (request : SellRequest) {w : World} (sale : Sale w) (houseId : ℕ) (item : Item)
    (inventory : KeyedList Item.guid) (w' : World) : World :=
  let a := srv.entryFor request sale w.auctionId houseId item
  ((w'.addAuction srv (srv.getAuctionsMap sale.creature.faction) a).setInventory inventory).saveToDB srv a

theorem list_cases (hchecked : srv.Checked request sale) (h : srv.list request sale houseId w' = some (w'', answer)) :
    ∃ (item : Item) (w₁ w₂ : World), item.count = sale.finalCount ∧ w₁.player = w'.player ∧
      w₁.listed = w'.listed ∧ w₁.saved = w'.saved ∧ w₁.addAItem srv item = some w₂ ∧
      w'' = srv.enter request sale houseId item (sale.items.foldl takeStack w'.player.inventory) w₂ := by
  rw [list] at h
  dsimp only at h
  split at h
  next hone =>
    obtain ⟨w₂, hadd, heq⟩ := Option.map_eq_some_iff.mp h
    obtain ⟨rfl, -⟩ := Prod.mk.inj heq
    have hothers : sale.others = [] := by
      have hlen := congrArg List.length hchecked.items
      rw [List.length_map, hone.1, Sale.items, List.length_cons] at hlen
      exact List.length_eq_zero_iff.mp (by omega)
    have hitems : sale.items = [sale.first] := by rw [Sale.items, hothers]
    refine ⟨sale.first.1, w', w₂, ?_, rfl, rfl, rfl, hadd, ?_⟩
    · have hsum := hchecked.finalCount
      rw [← hchecked.items, hitems] at hsum
      simp only [List.map_cons, List.map_nil, List.sum_cons, List.sum_nil] at hsum
      omega
    · have hplayer := (addAItem_eq hadd).1
      rw [hitems, List.foldl_cons, List.foldl_nil, takeStack, if_pos hone.2, ← hplayer, addAuction_player]
      rfl
  · obtain ⟨clone, hclone, heq⟩ := Option.bind_eq_some_iff.mp h
    cases clone with
    | none => exact absurd hclone (cloneItem_ne_null hchecked.pos)
    | some clone =>
      obtain ⟨newItem, w₁⟩ := clone
      obtain ⟨hcount, hplayer, hlisted, hsaved⟩ := cloneItem_eq hclone
      obtain ⟨w₂, hadd, heq⟩ := Option.map_eq_some_iff.mp heq
      obtain ⟨rfl, -⟩ := Prod.mk.inj heq
      refine ⟨newItem, w₁, w₂, ?_, hplayer, hlisted, hsaved, hadd, ?_⟩
      · rw [hcount, Nat.min_eq_left hchecked.fits]
      · rw [← hplayer, ← (addAItem_eq hadd).1, addAuction_player]
        rfl

theorem enter_money (srv : Server) (request : SellRequest) (sale : Sale w) (houseId : ℕ) (item : Item)
    (inventory : KeyedList Item.guid) (w' : World) :
    (srv.enter request sale houseId item inventory w').player.money = w'.player.money := by
  rw [enter, saveToDB_player]
  show (w'.addAuction srv _ _).player.money = w'.player.money
  rw [addAuction_player]

theorem list_master (hmaster : srv.coreType = NODE_TYPE_MASTER) (hchecked : srv.Checked request sale)
    (h : srv.list request sale houseId w' = some (w'', answer)) :
    ∃ item, srv.Lists request sale houseId item w' w'' := by
  obtain ⟨item, w₁, w₂, hcount, -, hlisted, hsaved, hadd, rfl⟩ := list_cases hchecked h
  obtain ⟨-, hlisted₂, hsaved₂, haitem⟩ := addAItem_eq hadd
  have hnot : ¬ srv.coreType ≠ NODE_TYPE_MASTER := not_not.mpr hmaster
  refine ⟨item, hcount, ?_, ?_, ?_, ?_⟩ <;> simp only [enter, World.saveToDB, if_neg hnot, World.addAuction]
  · exact congrArg (· ++ _) (hlisted₂.trans hlisted)
  · exact congrArg (· ++ _) (hsaved₂.trans hsaved)
  · exact haitem hmaster
  · rfl

theorem list_other (hother : srv.coreType ≠ NODE_TYPE_MASTER) (hchecked : srv.Checked request sale)
    (h : srv.list request sale houseId w' = some (w'', answer)) :
    w''.listed = w'.listed ∧ w''.player.money = w'.player.money := by
  obtain ⟨item, w₁, w₂, -, hplayer, hlisted, -, hadd, rfl⟩ := list_cases hchecked h
  obtain ⟨hplayer₂, hlisted₂, -, -⟩ := addAItem_eq hadd
  refine ⟨?_, ?_⟩
  · rw [enter]
    simp only [World.saveToDB, if_pos hother, World.addAuction]
    exact hlisted₂.trans hlisted
  · rw [enter_money, hplayer₂, hplayer]

def auctioneerInfo (srv : Server) (creature : Creature) : Option CreatureTemplate :=
  (srv.creatureData creature.entry).bind fun data => srv.creatureTemplates data.id

/-- The deposit is paid, and then nothing can be listed: the node is not the master, or the houses are
apart and the auctioneer's is not found. -/
def LosesDeposit (srv : Server) (w : World) (request : SellRequest) : Prop :=
  ∃ sale, srv.checkSale w request = .ok sale ∧
    (srv.coreType ≠ NODE_TYPE_MASTER ∨
      srv.allowTwoSide = false ∧ srv.auctioneerInfo sale.creature = none)

theorem paid_player (sale : Sale w) : (paid w sale).player = w.player.payDeposit sale.deposit sale.deposit_le := by
  rw [paid, World.generateAuctionID_player, World.setPlayer_player]

theorem paid_listed (sale : Sale w) : (paid w sale).listed = w.listed := by
  rw [paid, World.generateAuctionID_listed, World.setPlayer_listed]

theorem paid_saved (sale : Sale w) : (paid w sale).saved = w.saved := by
  rw [paid, World.generateAuctionID_saved, World.setPlayer_saved]

theorem paid_inventory (sale : Sale w) : (paid w sale).player.inventory = w.player.inventory := by
  rw [paid_player, Player.payDeposit, Player.setMoney_inventory]

theorem paid_money (sale : Sale w) : (paid w sale).player.money + sale.deposit = w.player.money := by
  rw [paid_player, Player.payDeposit_money]
  exact Nat.sub_add_cancel sale.deposit_le

def HasHouseId (srv : Server) (creature : Creature) (houseId : ℕ) : Prop :=
  (srv.allowTwoSide = true ∧ houseId = AUCTIONHOUSE_NEUTRAL) ∨
    srv.allowTwoSide = false ∧ ∃ info entry, srv.auctioneerInfo creature = some info ∧
      srv.getAuctionHouseEntry info.faction = some entry ∧ houseId = entry.houseId % 2 ^ 8

theorem sell_cases (h : srv.sell w request sale = some (w'', answer)) :
    (srv.allowTwoSide = false ∧ srv.auctioneerInfo sale.creature = none ∧ w'' = paid w sale) ∨
      ∃ houseId, srv.HasHouseId sale.creature houseId ∧
        srv.list request sale houseId (paid w sale) = some (w'', answer) := by
  rw [sell] at h
  split at h
  next htwo => exact .inr ⟨_, .inl ⟨htwo, rfl⟩, h⟩
  next htwo =>
    have hapart : srv.allowTwoSide = false := Bool.not_eq_true _ ▸ htwo
    split at h
    next hdata =>
      obtain ⟨rfl, -⟩ := Prod.mk.inj (Option.some.inj h)
      exact .inl ⟨hapart, by rw [auctioneerInfo, hdata]; rfl, rfl⟩
    next data hdata =>
      have hinfo : srv.auctioneerInfo sale.creature = srv.creatureTemplates data.id := by
        rw [auctioneerInfo, hdata]
        rfl
      split at h
      next htemplate =>
        obtain ⟨rfl, -⟩ := Prod.mk.inj (Option.some.inj h)
        exact .inl ⟨hapart, hinfo.trans htemplate, rfl⟩
      next info htemplate =>
        obtain ⟨entry, hentry, hlist⟩ := Option.bind_eq_some_iff.mp h
        exact .inr ⟨_, .inr ⟨hapart, info, entry, hinfo.trans htemplate, hentry, rfl⟩, hlist⟩

theorem HasHouseId.found {creature : Creature} (h : srv.HasHouseId creature houseId) :
    ¬ (srv.allowTwoSide = false ∧ srv.auctioneerInfo creature = none) := by
  rintro ⟨hapart, hnone⟩
  rcases h with ⟨htwo, -⟩ | ⟨-, info, entry, hinfo, -⟩
  · rw [hapart] at htwo
    cases htwo
  · rw [hnone] at hinfo
    cases hinfo

/-- A request costs nothing when it lists nothing, and the items it asks for when it lists them. -/
structure FairSale (request : SellRequest) (w w' : World) : Prop where
  refused : w'.listed = w.listed →
    w'.player.money = w.player.money ∧ w'.player.inventory = w.player.inventory
  sold : ∀ house a, w'.listed = w.listed ++ [(house, a)] →
    a.itemCount = (request.items.map Prod.snd).sum ∧
      (w'.aitems a.itemGuidLow).map Item.count = some a.itemCount ∧
      (∀ s ∈ request.items, ∃ item, w.player.inventory.find? s.1 = some item ∧ s.2 ≤ item.count) ∧
      ∀ guid, w'.player.inventory.find? guid = (w.player.inventory.find? guid).bind (leftOf request.items)

theorem FairSale.refl (request : SellRequest) (w : World) : FairSale request w w where
  refused := fun _ => ⟨rfl, rfl⟩
  sold := fun house a h => by simp at h

theorem Lists.fair (hchecked : srv.Checked request sale)
    (h : srv.Lists request sale houseId item (paid w sale) w'') : FairSale request w w'' where
  refused := fun hsame => by
    have hlisted := h.listed.symm.trans hsame
    rw [paid_listed] at hlisted
    simp at hlisted
  sold := by
    intro house a hlisted
    have hentry : srv.entryFor request sale w.auctionId houseId item = a := by
      have hboth := h.listed
      rw [paid_listed, hlisted] at hboth
      have hlast := List.append_inj_right' hboth.symm rfl
      exact (Prod.mk.inj (List.singleton_inj.mp hlast)).2
    subst hentry
    have hcount : item.count = (request.items.map Prod.snd).sum := h.count.trans hchecked.finalCount
    have hguids : (sale.items.map fun s => s.1.guid).Nodup := by
      have hnodup := hchecked.nodup
      rw [← hchecked.items, List.map_map] at hnodup
      exact hnodup
    refine ⟨hcount, ?_, ?_, fun guid => ?_⟩
    · show (w''.aitems item.guidLow).map Item.count = some item.count
      rw [h.aitem]
      rfl
    · intro s hs
      rw [← hchecked.items] at hs
      obtain ⟨p, hp, rfl⟩ := List.mem_map.mp hs
      exact ⟨p.1, hchecked.found p hp⟩
    · rw [h.inventory, paid_inventory, ← hchecked.items]
      exact find?_takeStacks hguids (fun s hs => (hchecked.found s hs).1) guid

/-- A sale is fair unless the deposit is paid before the house is known to be missing. -/
theorem fairSale_iff (h : srv.handleAuctionSellItem w request = some (w', answer)) :
    FairSale request w w' ↔ ¬ srv.LosesDeposit w request := by
  rw [handleAuctionSellItem] at h
  split at h
  next hrefused =>
    obtain ⟨rfl, -⟩ := Prod.mk.inj (Option.some.inj h)
    refine iff_of_true (FairSale.refl request w) ?_
    intro ⟨sale, hsale, _⟩
    rw [hrefused] at hsale
    cases hsale
  next sale hsale =>
    have hchecked := checkSale_ok hsale
    have hloses : srv.LosesDeposit w request ↔ srv.coreType ≠ NODE_TYPE_MASTER ∨
        srv.allowTwoSide = false ∧ srv.auctioneerInfo sale.creature = none := by
      constructor
      · rintro ⟨sale', hsale', hlost⟩
        obtain rfl := Except.ok.inj (hsale.symm.trans hsale')
        exact hlost
      · exact fun hlost => ⟨sale, hsale, hlost⟩
    -- what is listed nowhere has cost the deposit
    have hunfair : w'.listed = w.listed → w'.player.money = (paid w sale).player.money →
        ¬ FairSale request w w' := by
      intro hlisted hmoney hfair
      have hpaid := paid_money sale
      have hdeposit := hchecked.deposit
      have hsame := (hfair.refused hlisted).1
      simp only [AH_MINIMUM_DEPOSIT] at hdeposit
      omega
    rw [hloses]
    rcases sell_cases h with ⟨hapart, hnone, rfl⟩ | ⟨houseId, hhouse, hlist⟩
    · exact iff_of_false (hunfair (paid_listed sale) rfl) (not_not.mpr (.inr ⟨hapart, hnone⟩))
    · by_cases hmaster : srv.coreType = NODE_TYPE_MASTER
      · obtain ⟨item, hlists⟩ := list_master hmaster hchecked hlist
        refine iff_of_true (hlists.fair hchecked) ?_
        rintro (hother | hnone)
        · exact hother hmaster
        · exact hhouse.found hnone
      · obtain ⟨hlisted, hmoney⟩ := list_other hmaster hchecked hlist
        exact iff_of_false (hunfair (hlisted.trans (paid_listed sale)) hmoney) (not_not.mpr (.inl hmaster))

theorem fairSale_iff_sample : ∃ w' answer,
    (sampleServer fun guid => some ⟨guid⟩).handleAuctionSellItem sampleWorld (sampleRequest 70) = some (w', answer) ∧
      w'.listed.map (fun l => l.2.itemCount) = [13] ∧ w'.player.inventory.rows.map Item.count = [15] ∧
      FairSale (sampleRequest 70) sampleWorld w' := by
  have hlists : ((sampleServer fun guid => some ⟨guid⟩).handleAuctionSellItem sampleWorld (sampleRequest 70)).any
      (fun r => r.1.listed.map (fun l => l.2.itemCount) = [13] ∧ r.1.player.inventory.rows.map Item.count = [15]) =
        true := by
    decide +kernel
  obtain ⟨r, hr, htest⟩ := (Option.any_eq_true ..).mp hlists
  obtain ⟨w', answer⟩ := r
  obtain ⟨hlisted, hrows⟩ := of_decide_eq_true htest
  refine ⟨w', answer, hr, hlisted, hrows, (fairSale_iff hr).mpr ?_⟩
  rintro ⟨sale, hsale, hother | hnone⟩
  · exact hother rfl
  · have hcreature : some ⟨8670, 12⟩ = some sale.creature := (checkSale_ok hsale).creature
    rw [← Option.some.inj hcreature] at hnone
    exact Option.some_ne_none _ hnone.2

theorem deposit_of_refused_sale : ¬ ∀ srv w request w' answer,
    handleAuctionSellItem srv w request = some (w', answer) → FairSale request w w' := by
  intro hall
  have hlost : ((sampleServer fun _ => none).handleAuctionSellItem sampleWorld (sampleRequest 70)).any
      (fun r => r.1.listed.length = 0 ∧ r.1.player.money = 9662) = true := by
    decide +kernel
  obtain ⟨r, hr, htest⟩ := (Option.any_eq_true ..).mp hlost
  obtain ⟨w', answer⟩ := r
  obtain ⟨hlisted, hmoney⟩ := of_decide_eq_true htest
  have hfair := hall _ _ _ _ _ hr
  have hsame := (hfair.refused (List.length_eq_zero_iff.mp hlisted)).1
  rw [hmoney] at hsame
  exact absurd hsame (by decide)

end Server

end HysteriaCore.Auctions.Sales

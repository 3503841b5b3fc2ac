import HysteriaCore.Trades.Offers
import HysteriaCore.Lib.Runs

/-!
# Trades are agreed and exact

The acceptance of a player is set before the checks. A refusal of an item leaves it set; the partner's
request runs into the same refusal, or is refused by `CanStoreItems`.
-/

namespace HysteriaCore.Trades
open Lib Objects

namespace Trade
variable {rules : Rules} {m m' : Trade} {s : Side}

/-! ### Accepting -/

theorem eligible_of_canStoreItems {inventory : Inventory} {own items : List Item}
    (h : rules.canStoreItems s inventory own items = true) :
    ∀ item ∈ items, rules.isBindedNotWith s.other item = false := by
  intro item hitem
  have hfree := List.all_eq_true.mp (Bool.and_eq_true_iff.mp h).1 item hitem
  rwa [Bool.not_eq_true'] at hfree

theorem accepted_setAccepted_self (m : Trade) (s : Side) (state : Bool) :
    ((m.setAccepted s state).data s).accepted = state := by
  rw [setAccepted, data_setData_self]

theorem data_setAccepted_other (m : Trade) (s : Side) (state : Bool) :
    (m.setAccepted s state).data s.other = m.data s.other := by
  rw [setAccepted, data_setData_of_ne other_ne]

theorem sameOffers_setAccepted (m : Trade) (s : Side) (state : Bool) : SameOffers m (m.setAccepted s state) := by
  refine sameOffers_iff.mpr fun t => ?_
  by_cases ht : t = s
  · rw [ht, setAccepted, data_setData_self]
    rfl
  · rw [setAccepted, data_setData_of_ne ht]

theorem SameOffers.trans {m'' : Trade} (h : SameOffers m m') (h' : SameOffers m' m'') : SameOffers m m'' :=
  ⟨h'.1.trans h.1, h'.2.trans h.2⟩

/-- The offers stay, and so does the partner's acceptance; one's own stays if it is refused each time. -/
structure Waits (rules : Rules) (s : Side) (m : Trade) (result : Trade × Answer) : Prop where
  money : result.1.money = m.money
  inventory : result.1.inventory = m.inventory
  status : result.1.status = m.status
  offers : SameOffers m result.1
  partner : (result.1.data s.other).accepted = true → (m.data s.other).accepted = true
  own : (result.1.data s).accepted = true → result.2.isAcceptance = true ∨ m.Refusable rules s

structure Completes (rules : Rules) (s : Side) (m : Trade) (result : Trade × Answer) : Prop where
  eq : result = (completeTrade rules (m.setAccepted s true) s, .tradeComplete)
  accepted : (m.data s.other).accepted = true
  refusal : m.refusal rules s = none
  room : ∀ t, m.money t + (m.data t.other).money < maxMoneyAmount
  stores : ∀ t, rules.canStoreItems t (m.inventory t) (m.offeredItems t) (m.offeredItems t.other) = true

theorem waits_setAccepted (answer : Answer)
    (h : answer.isAcceptance = true ∨ m.Refusable rules s) : Waits rules s m (m.setAccepted s true, answer) where
  money := rfl
  inventory := rfl
  status := rfl
  offers := sameOffers_setAccepted m s true
  partner := fun hpartner => by rwa [data_setAccepted_other] at hpartner
  own := fun _ => h

theorem waits_takeBack (m : Trade) (s : Side) (answer : Answer) :
    Waits rules s m ((m.setAccepted s true).setAccepted s false, answer) where
  money := rfl
  inventory := rfl
  status := rfl
  offers := (sameOffers_setAccepted m s true).trans (sameOffers_setAccepted _ s false)
  partner := fun hpartner => by rwa [data_setAccepted_other, data_setAccepted_other] at hpartner
  own := fun hown => by
    rw [accepted_setAccepted_self] at hown
    cases hown

theorem waits_takeOther (answer : Answer) (h : m.Refusable rules s) :
    Waits rules s m ((m.setAccepted s true).setAccepted s.other false, answer) where
  money := rfl
  inventory := rfl
  status := rfl
  offers := (sameOffers_setAccepted m s true).trans (sameOffers_setAccepted _ s.other false)
  partner := fun hpartner => by
    rw [accepted_setAccepted_self] at hpartner
    cases hpartner
  own := fun _ => .inr h

theorem offeredItems_congr (hinventory : m'.inventory = m.inventory) (hoffers : SameOffers m m') (t : Side) :
    m'.offeredItems t = m.offeredItems t := by
  rw [offeredItems, offeredItems, offeredFrom, offeredFrom, (hoffers.data t).2.2, hinventory]

theorem Reoffers.of_same {m'' : Trade} (h : Reoffers m' m'') (hmoney : m'.money = m.money)
    (hinventory : m'.inventory = m.inventory) (hstatus : m'.status = m.status) (hoffers : SameOffers m m') :
    Reoffers m m'' :=
  ⟨h.money.trans hmoney, h.inventory.trans hinventory, h.status.trans hstatus, h.flags,
    fun hvalid => h.valid (valid_congr hmoney hoffers hvalid)⟩

theorem setSpell_of_spellFails {checkCast : Side → Bool} (h : m.spellFails rules s checkCast = true) :
    Reoffers m (m.setSpell s 0 0) := by
  rcases m.setSpell_reoffers s 0 0 with hsame | hchanged
  · rw [setSpell] at hsame ⊢
    have hne : (m.data s).spell ≠ 0 := of_decide_eq_true (Bool.and_eq_true_iff.mp h).1
    rw [if_neg fun hzero => hne hzero.1]
    exact reoffers_setData (fun hvalid => hvalid.affordable s) fun hvalid => hvalid.distinct s
  · exact hchanged

theorem handleAcceptTrade_cases (hvalid : m.Valid) (hmax : ∀ t, m.money t ≤ maxMoneyAmount) (checkCast : Side → Bool) :
    Waits rules s m (m.handleAcceptTrade rules s checkCast) ∨
      Reoffers m (m.handleAcceptTrade rules s checkCast).1 ∨
      Completes rules s m (m.handleAcceptTrade rules s checkCast) := by
  have hroom : ∀ t, subU32 maxMoneyAmount (m.data t).money = maxMoneyAmount - (m.data t).money := fun t =>
    subU32_of_le ((hvalid.affordable t).trans (hmax t)) (by decide)
  have hsame := sameOffers_setAccepted m s true
  unfold handleAcceptTrade
  extract_lets o m₁
  have hcoins : ∀ t, (m₁.data t).money = (m.data t).money := fun t => (hsame.data t).1
  have hdata : m₁.data o = m.data o := data_setAccepted_other m s true
  split
  · exact .inl (waits_takeBack m s _)
  · split
    next hless =>
      rw [hcoins] at hless
      exact absurd (hvalid.affordable o) (of_decide_eq_false hless)
    · split
      · exact .inl (waits_takeBack m s _)
      next hown =>
        split
        next hother =>
          refine .inl (waits_takeOther _ (.inl ⟨o, ?_⟩))
          rw [hcoins, hroom] at hother
          rw [show o.other = s from other_other]
          have hle : maxMoneyAmount - (m.data s).money ≤ m.money o := hother
          omega
        next hother =>
          rw [hcoins, hroom] at hown hother
          have hrefused : m₁.refusal rules s = m.refusal rules s := refusal_congr rfl hsame
          split
          next answer hrefusal =>
            refine .inl (waits_setAccepted answer (.inr (.inr ?_)))
            rw [← hrefused, hrefusal]
            exact Option.some_ne_none answer
          next hrefusal =>
            rw [hrefused] at hrefusal
            split
            next haccepted =>
              rw [tryComplete]
              dsimp only
              split
              next hfails => exact .inr (.inl ((setSpell_of_spellFails hfails).of_same rfl rfl rfl hsame))
              · split
                next hfails => exact .inr (.inl ((setSpell_of_spellFails hfails).of_same rfl rfl rfl hsame))
                · split
                  next hstores =>
                    have hitems : ∀ t, m₁.offeredItems t = m.offeredItems t := offeredItems_congr rfl hsame
                    simp only [offered_filterMap, hitems] at hstores
                    have hmine : m.money s + (m.data s.other).money < maxMoneyAmount :=
                      Nat.add_lt_of_lt_sub (not_le.mp hown)
                    have hhis : m.money s.other + (m.data s).money < maxMoneyAmount :=
                      Nat.add_lt_of_lt_sub (not_le.mp hother)
                    refine .inr (.inr ⟨rfl, hdata ▸ haccepted, hrefusal, fun t => ?_, fun t => ?_⟩)
                    · rcases eq_or_eq_other s t with rfl | rfl
                      · exact hmine
                      · rw [other_other]
                        exact hhis
                    · rcases eq_or_eq_other s t with rfl | rfl
                      · exact hstores.2
                      · rw [other_other]
                        exact hstores.1
                  · exact .inr (.inl ((reoffers_backToTrade m₁).of_same rfl rfl rfl hsame))
            · exact .inl (waits_setAccepted _ (.inl rfl))

theorem modifyMoney_swap {money give get : ℕ} (hgive : give ≤ money) (hmax : money ≤ maxMoneyAmount)
    (hroom : money + get < maxMoneyAmount) :
    (modifyMoney (modifyMoney money (-toInt32 give)).2 (toInt32 get)).2 = money - give + get := by
  rw [modifyMoney_payCast hgive hmax]
  dsimp only
  rw [modifyMoney_room (by omega)]

theorem completeTrade_spec (hvalid : m.Valid) (hmax : ∀ t, m.money t ≤ maxMoneyAmount)
    (hroom : ∀ t, m.money t + (m.data t.other).money < maxMoneyAmount) (hlawful : rules.Lawful)
    (hstores : ∀ t, rules.canStoreItems t (m.inventory t) (m.offeredItems t) (m.offeredItems t.other) = true)
    (t : Side) :
    (m.completeTrade rules s).money t = m.money t - (m.data t).money + (m.data t.other).money ∧
    (m.completeTrade rules s).inventory t =
      (rules.storage t).storeAll (removeItems (m.inventory t) (m.offeredItems t)) (m.offeredItems t.other) := by
  have hswap : ∀ t, (modifyMoney (modifyMoney (m.money t) (-toInt32 (m.data t).money)).2
      (toInt32 (m.data t.other).money)).2 = m.money t - (m.data t).money + (m.data t.other).money :=
    fun t => modifyMoney_swap (hvalid.affordable t) (hmax t) (hroom t)
  have hfits : ∀ t, (rules.storage t).StoresAll (removeItems (m.inventory t) (m.offeredItems t))
      (m.offeredItems t.other) := fun t => hlawful.fits t _ _ _ (hstores t)
  have hlength : (m.offered s).length = (m.offered s.other).length := by simp [offered]
  have hmoved := moveItems_eq (rules.storage s) (rules.storage s.other)
    (removeItems (m.inventory s) (m.offeredItems s)) (removeItems (m.inventory s.other) (m.offeredItems s.other))
    ((m.offered s).zip (m.offered s.other))
  rw [List.map_snd_zip hlength.ge, List.map_fst_zip hlength.le, offered_filterMap, offered_filterMap] at hmoved
  have hback := hfits s.other
  rw [other_other] at hback
  have hmoved := hmoved (hfits s) hback
  unfold completeTrade
  extract_lets o inventories pay
  have hinventories : inventories = _ := hmoved
  rcases eq_or_eq_other s t with rfl | rfl
  · dsimp only
    rw [Function.update_of_ne other_ne.symm, Function.update_of_ne other_ne.symm, Function.update_self,
      Function.update_self, hinventories]
    exact ⟨hswap t, rfl⟩
  · dsimp only
    rw [Function.update_self, Function.update_self, hinventories, other_other]
    refine ⟨?_, rfl⟩
    have hother := hswap s.other
    rwa [other_other] at hother

/-! ### The invariant -/

/-- An open trade: the players are as they were, and a player who has accepted agrees or is refused
with the offers as they are. -/
structure Open (rules : Rules) (start m : Trade) : Prop where
  money : m.money = start.money
  inventory : m.inventory = start.inventory
  valid : m.Valid
  agreed : ∀ s, (m.data s).accepted = true → m.agreed s = true ∨ m.Refusable rules s

/-- What a completed trade has done: it was agreed, and it moved what the offers said. -/
structure Completed (rules : Rules) (start m : Trade) : Prop where
  agreed : ∀ s, m.agreed s = true
  money : ∀ s, (m.data s).money ≤ start.money s ∧
    m.money s = start.money s - (m.data s).money + (m.data s.other).money ∧ m.money s < maxMoneyAmount
  inventory : ∀ s, m.inventory s =
    (rules.storage s).storeAll (removeItems (start.inventory s) (offeredFrom (start.inventory s) (m.data s)))
      (offeredFrom (start.inventory s.other) (m.data s.other))
  units : ∀ s entry, units (m.inventory s).rows entry +
      units (offeredFrom (start.inventory s) (m.data s)) entry =
    units (start.inventory s).rows entry + units (offeredFrom (start.inventory s.other) (m.data s.other)) entry

def Kept (rules : Rules) (start m : Trade) : Prop :=
  match m.status with
  | .isOpen => Open rules start m
  | .completed => Completed rules start m
  | .cancelled => m.money = start.money ∧ m.inventory = start.inventory

section
variable {start : Trade}

theorem Open.of_same (h : Open rules start m) (hmoney : m'.money = m.money) (hinventory : m'.inventory = m.inventory)
    (hoffers : SameOffers m m') (hagreed : ∀ s, (m'.data s).accepted = true →
      m'.agreed s = true ∨ m.Refusable rules s) : Open rules start m' where
  money := hmoney.trans h.money
  inventory := hinventory.trans h.inventory
  valid := valid_congr hmoney hoffers h.valid
  agreed := fun s hs => (hagreed s hs).imp_right (refusable_congr hmoney hinventory hoffers).mpr

theorem Open.of_reoffers (h : Open rules start m) (hchanged : Reoffers m m') (agreed : Side → Bool) :
    Open rules start { m' with agreed := agreed } where
  money := hchanged.money.trans h.money
  inventory := hchanged.inventory.trans h.inventory
  valid := ⟨(hchanged.valid h.valid).affordable, (hchanged.valid h.valid).distinct⟩
  agreed := fun s hs => by
    rw [show ({ m' with agreed := agreed } : Trade).data = m'.data from rfl, hchanged.flags s] at hs
    cases hs

theorem kept_of_open (h : Open rules start m) (hstatus : m.status = .isOpen) : Kept rules start m := by
  rw [Kept, hstatus]
  exact h

theorem kept_of_completed (h : Completed rules start m) (hstatus : m.status = .completed) : Kept rules start m := by
  rw [Kept, hstatus]
  exact h

theorem open_of_offers (h : Open rules start m) (hchange : m' = m ∨ Reoffers m m') :
    Open rules start { m' with agreed := fun s => m.agreed s && decide (SameOffers m m') } := by
  rcases hchange with rfl | hchanged
  · refine h.of_same rfl rfl ⟨rfl, rfl⟩ fun s hs => ?_
    have hkept : decide (SameOffers m' m') = true := decide_eq_true ⟨rfl, rfl⟩
    rw [show ({ m' with agreed := fun s => m'.agreed s && decide (SameOffers m' m') } : Trade).agreed s =
      (m'.agreed s && decide (SameOffers m' m')) from rfl, hkept, Bool.and_true]
    exact h.agreed s hs
  · exact h.of_reoffers hchanged _

theorem agreed_of_completes (h : Open rules start m) {result : Trade × Answer} (hdone : Completes rules s m result) :
    m.agreed s.other = true := by
  refine (h.agreed s.other hdone.accepted).resolve_right fun hrefusable => ?_
  rcases hrefusable with ⟨t, hfull⟩ | hrefused
  · exact absurd (hdone.room t) (not_lt.mpr hfull)
  · refine hrefused (refusal_other hdone.refusal fun i hi item hitem => ?_)
    exact eligible_of_canStoreItems (hdone.stores s) item (mem_offeredItems.mpr ⟨i, hi, hitem⟩)

theorem completed_of_completes (h : Open rules start m) (hmax : ∀ t, start.money t ≤ maxMoneyAmount)
    (hlawful : rules.Lawful) {result : Trade × Answer} (hdone : Completes rules s m result)
    {agreed : Side → Bool} (hagreed : ∀ t, agreed t = true) :
    Completed rules start { result.1 with agreed := agreed } := by
  have hsame := sameOffers_setAccepted m s true
  have hmoney : (m.setAccepted s true).money = start.money := h.money
  have hinventory : (m.setAccepted s true).inventory = start.inventory := h.inventory
  have hvalid : (m.setAccepted s true).Valid := valid_congr (m := m) rfl hsame h.valid
  have hroom : ∀ t, start.money t + ((m.setAccepted s true).data t.other).money < maxMoneyAmount := fun t => by
    rw [(hsame.data t.other).1, ← h.money]
    exact hdone.room t
  have hitems : ∀ t, (m.setAccepted s true).offeredItems t = m.offeredItems t :=
    offeredItems_congr rfl hsame
  have hstores : ∀ t, rules.canStoreItems t ((m.setAccepted s true).inventory t)
      ((m.setAccepted s true).offeredItems t) ((m.setAccepted s true).offeredItems t.other) = true := fun t => by
    rw [hitems, hitems]
    exact hdone.stores t
  have hspec := completeTrade_spec (s := s) hvalid (fun t => hmoney ▸ hmax t) (fun t => hmoney ▸ hroom t)
    hlawful hstores
  have hoffered : ∀ t, (m.setAccepted s true).offeredItems t =
      offeredFrom (start.inventory t) ((m.setAccepted s true).data t) := fun t => by rw [offeredItems, hinventory]
  rw [hdone.eq]
  refine ⟨hagreed, fun t => ⟨?_, ?_, ?_⟩, fun t => ?_, fun t entry => ?_⟩
  · exact hmoney ▸ hvalid.affordable t
  · rw [← hmoney]
    exact (hspec t).1
  · have hpaid := (hspec t).1
    have hlt := hroom t
    rw [hmoney] at hpaid
    show (completeTrade rules (m.setAccepted s true) s).money t < maxMoneyAmount
    omega
  · show (completeTrade rules (m.setAccepted s true) s).inventory t =
      (rules.storage t).storeAll
        (removeItems (start.inventory t) (offeredFrom (start.inventory t) ((m.setAccepted s true).data t)))
        (offeredFrom (start.inventory t.other) ((m.setAccepted s true).data t.other))
    rw [← hoffered, ← hoffered, ← hinventory]
    exact (hspec t).2
  · have hremoved := units_removeItems (offeredItems_distinct hvalid t) (fun item hitem =>
        have ⟨_, _, hget⟩ := mem_offeredItems.mp hitem
        (getItem_mem hget).1) entry
    have hstored := units_storeAll (hlawful.adds t) (hlawful.fits t _ _ _ (hstores t)) entry
    show units ((completeTrade rules (m.setAccepted s true) s).inventory t).rows entry +
        units (offeredFrom (start.inventory t) ((m.setAccepted s true).data t)) entry =
      units (start.inventory t).rows entry +
        units (offeredFrom (start.inventory t.other) ((m.setAccepted s true).data t.other)) entry
    rw [← hoffered, ← hoffered, ← hinventory, (hspec t).2, hstored]
    omega

theorem kept_acceptTrade (h : Open rules start m) (hstatus : m.status = .isOpen)
    (hmax : ∀ t, start.money t ≤ maxMoneyAmount) (hlawful : rules.Lawful) (checkCast : Side → Bool) :
    Kept rules start (m.next rules (.acceptTrade s checkCast)) := by
  have hmoney : ∀ t, m.money t ≤ maxMoneyAmount := fun t => h.money ▸ hmax t
  rw [next, if_pos hstatus]
  show Kept rules start { (m.handleAcceptTrade rules s checkCast).1 with agreed := _ }
  rcases handleAcceptTrade_cases h.valid hmoney checkCast with hwaits | hchanged | hdone
  · refine kept_of_open (h.of_same hwaits.money hwaits.inventory hwaits.offers fun t ht => ?_)
      (hwaits.status.trans hstatus)
    have hkept : decide (SameOffers m (m.handleAcceptTrade rules s checkCast).1) = true := decide_eq_true hwaits.offers
    rcases eq_or_eq_other s t with rfl | rfl
    · exact (hwaits.own ht).imp_left fun hacc => (if_pos rfl).trans hacc
    · refine (h.agreed s.other (hwaits.partner ht)).imp_left fun hagreed => (if_neg other_ne).trans ?_
      show (m.agreed s.other && decide (SameOffers m (m.handleAcceptTrade rules s checkCast).1)) = true
      rw [hagreed, hkept]
      rfl
  · exact kept_of_open (h.of_reoffers hchanged _) (hchanged.status.trans hstatus)
  · have hcompleted : (m.handleAcceptTrade rules s checkCast).1.status = .completed := by
      rw [hdone.eq]
      rfl
    refine kept_of_completed (completed_of_completes h hmax hlawful hdone fun t => ?_) hcompleted
    rcases eq_or_eq_other s t with rfl | rfl
    · refine (if_pos rfl).trans ?_
      show (m.handleAcceptTrade rules t checkCast).2.isAcceptance = true
      rw [hdone.eq]
      rfl
    · refine (if_neg other_ne).trans ?_
      show (m.agreed s.other && decide (SameOffers m (m.handleAcceptTrade rules s checkCast).1)) = true
      rw [agreed_of_completes h hdone, Bool.true_and, decide_eq_true_eq, hdone.eq]
      exact sameOffers_setAccepted m s true

theorem kept_next (h : Kept rules start m) (hmax : ∀ t, start.money t ≤ maxMoneyAmount)
    (hlawful : rules.Lawful) (r : Request) : Kept rules start (m.next rules r) := by
  by_cases hstatus : m.status = .isOpen
  · rw [Kept, hstatus] at h
    have hoffers : ∀ {m'}, m' = m ∨ Reoffers m m' →
        Kept rules start { m' with agreed := fun s => m.agreed s && decide (SameOffers m m') } := by
      intro m' hchange
      refine kept_of_open (open_of_offers h hchange) ?_
      rcases hchange with rfl | hchanged
      · exact hstatus
      · exact hchanged.status.trans hstatus
    cases r with
    | acceptTrade s checkCast => exact kept_acceptTrade h hstatus hmax hlawful checkCast
    | setTradeGold s gold =>
      rw [next, if_pos hstatus]
      exact hoffers (m.setMoney_reoffers s _)
    | setTradeItem s tradeSlot bag slot =>
      rw [next, if_pos hstatus]
      exact hoffers (m.handleSetTradeItem_reoffers s tradeSlot bag slot)
    | clearTradeItem s tradeSlot =>
      rw [next, if_pos hstatus]
      exact hoffers (m.handleClearTradeItem_reoffers s tradeSlot)
    | setSpell s spell castItem =>
      rw [next, if_pos hstatus]
      exact hoffers (m.setSpell_reoffers s spell castItem)
    | unacceptTrade s =>
      rw [next, if_pos hstatus]
      have hsame := sameOffers_setAccepted m s false
      refine kept_of_open (h.of_same rfl rfl hsame fun t ht => ?_) hstatus
      replace ht : ((m.setAccepted s false).data t).accepted = true := ht
      rcases eq_or_eq_other s t with rfl | rfl
      · rw [accepted_setAccepted_self] at ht
        cases ht
      · rw [data_setAccepted_other] at ht
        refine (h.agreed s.other ht).imp_left fun hagreed => (if_neg other_ne).trans ?_
        show (m.agreed s.other && decide (SameOffers m (m.setAccepted s false))) = true
        rw [hagreed, decide_eq_true hsame]
        rfl
    | cancelTrade s =>
      rw [next, if_pos hstatus]
      exact ⟨h.money, h.inventory⟩
  · rw [next, if_neg hstatus]
    exact h

end

/-! ### A bag of four slots -/

def sampleFits (inventory : Inventory) (item : Item) : Bool :=
  decide (inventory.size < 4) && inventory.rows.all fun i => decide (i.guid ≠ item.guid)

def sampleFitAll : Inventory → List Item → Bool
  | _, [] => true
  | inventory, item :: items => sampleFits inventory item && sampleFitAll (inventory.put item) items

def sampleStorage : Storage where
  canStoreItem := sampleFits
  hasSpace inventory own items := sampleFitAll (removeItems inventory own) items
  moveItemToInventory := KeyedList.put
  moveBack inventory _ item := inventory.put item

def sampleItem : Side → Item
  | .first => ⟨1, 10, 5, 255, 23⟩
  | .second => ⟨2, 20, 1, 255, 24⟩

def sampleRules (bound : ℕ) : Rules where
  canBeTraded _ _ := true
  isBindedNotWith _ item := decide (item.guid = bound)
  spellInfo _ := false
  storage _ := sampleStorage

theorem sampleRules_lawful (bound : ℕ) : (sampleRules bound).Lawful where
  fits := by
    intro s inventory own items haccepted
    have hfits : sampleFitAll (removeItems inventory own) items = true := (Bool.and_eq_true_iff.mp haccepted).2
    generalize removeItems inventory own = rest at hfits ⊢
    clear haccepted
    induction items generalizing rest with
    | nil => trivial
    | cons item items ih =>
      obtain ⟨hfirst, hall⟩ := Bool.and_eq_true_iff.mp hfits
      exact ⟨hfirst, ih _ hall⟩
  adds := by
    intro s inventory item entry hfits
    have hnew := List.all_eq_true.mp (Bool.and_eq_true_iff.mp hfits).2
    have hsum := inventory.sum_put_of_new (fun i => if i.entry = entry then i.count else 0) (a := item)
      fun i hi => of_decide_eq_true (hnew i hi)
    show units (inventory.put item).rows entry = _
    simpa only [units, List.map_cons, List.sum_cons, List.map_nil, List.sum_nil, Nat.add_zero] using hsum

def sampleInventory (s : Side) : Inventory := KeyedList.empty.put (sampleItem s)

end Trade

end HysteriaCore.Trades

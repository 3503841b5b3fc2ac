import HysteriaCore.Trades.Agreement

/-!
# Bound items in a trade

An accept checks the eligibility of the own items, and leaves the acceptance set when it refuses one. The
partner's accept then fails at `CanStoreItems`, which both sides are asked before anything is moved.
-/

namespace HysteriaCore.Trades
open Lib Objects

structure Binding where
  isSoulBound : Bool
  ownerGuid : ℕ
  bopTradeable : Bool
  allowedGuids : List ℕ
  isBoundAccountWide : Bool

def Binding.isBindedNotWith (b : Binding) (player : ℕ) : Bool :=
  if !b.isSoulBound then false
  else if b.ownerGuid = player then false
  else if b.bopTradeable && decide (player ∈ b.allowedGuids) then false
  else if b.isBoundAccountWide then false
  else true

def Rules.withBindings (rules : Rules) (guid : Side → ℕ) (binding : ℕ → Binding) : Rules :=
  { rules with isBindedNotWith := fun s item => (binding item.guid).isBindedNotWith (guid s.other) }

namespace Trade
variable {rules : Rules} {m m' : Trade} {s : Side}

theorem setSpell_keeps (m : Trade) (s : Side) (spell castItem : ℕ) :
    (m.setSpell s spell castItem).status = m.status ∧ (m.setSpell s spell castItem).inventory = m.inventory := by
  rcases m.setSpell_reoffers s spell castItem with hsame | hchanged
  · rw [hsame]
    exact ⟨rfl, rfl⟩
  · exact ⟨hchanged.status, hchanged.inventory⟩

/-- An accept request moves nothing, or completes the trade with items that both sides can store. -/
theorem handleAcceptTrade_outcome (rules : Rules) (m : Trade) (s : Side) (checkCast : Side → Bool) :
    ((m.handleAcceptTrade rules s checkCast).1.status = m.status ∧
      (m.handleAcceptTrade rules s checkCast).1.inventory = m.inventory) ∨
    ((m.handleAcceptTrade rules s checkCast).1.status = .completed ∧ ∀ t,
      ((m.handleAcceptTrade rules s checkCast).1.data t).items = (m.data t).items ∧
      rules.canStoreItems t (m.inventory t) (m.offeredItems t) (m.offeredItems t.other) = true) := by
  have hsame := sameOffers_setAccepted m s true
  unfold handleAcceptTrade
  extract_lets o m₁
  split
  · exact .inl ⟨rfl, rfl⟩
  · split
    · exact .inl ⟨rfl, rfl⟩
    · split
      · exact .inl ⟨rfl, rfl⟩
      · split
        · exact .inl ⟨rfl, rfl⟩
        · split
          · exact .inl ⟨rfl, rfl⟩
          · split
            · rw [tryComplete]
              dsimp only
              split
              · exact .inl (m₁.setSpell_keeps s 0 0)
              · split
                · exact .inl (m₁.setSpell_keeps s.other 0 0)
                · split
                  next hstores =>
                    refine .inr ⟨rfl, fun t => ⟨(hsame.data t).2.2, ?_⟩⟩
                    have hitems : ∀ t, m₁.offeredItems t = m.offeredItems t := offeredItems_congr rfl hsame
                    simp only [offered_filterMap, hitems] at hstores
                    rcases eq_or_eq_other s t with rfl | rfl
                    · exact hstores.2
                    · rw [other_other]
                      exact hstores.1
                  · exact .inl ⟨rfl, rfl⟩
            · exact .inl ⟨rfl, rfl⟩

/-! ### Runs -/

/-- The items of a completed trade are those that were offered, and none is bound to somebody else. -/
structure Bound (rules : Rules) (inventory : Side → Inventory) (m : Trade) : Prop where
  same : m.status = .isOpen → m.inventory = inventory
  completed : m.status = .completed →
    ∀ s, ∀ item ∈ offeredFrom (inventory s) (m.data s), rules.isBindedNotWith s item = false

section
variable {inventory : Side → Inventory}

theorem bound_of_same (h : Bound rules inventory m) (hopen : m.status = .isOpen) (hstatus : m'.status = m.status)
    (hinventory : m'.inventory = m.inventory) (agreed : Side → Bool) :
    Bound rules inventory { m' with agreed := agreed } where
  same := fun _ => hinventory.trans (h.same hopen)
  completed := fun hdone => by
    have hstill : m'.status = .isOpen := hstatus.trans hopen
    rw [show m'.status = .completed from hdone] at hstill
    cases hstill

theorem Bound.next (h : Bound rules inventory m) (r : Request) : Bound rules inventory (m.next rules r) := by
  by_cases hopen : m.status = .isOpen
  · have hoffers : ∀ {m'} (agreed : Side → Bool), m' = m ∨ Reoffers m m' →
        Bound rules inventory { m' with agreed := agreed } := by
      intro m' agreed hchange
      rcases hchange with rfl | hchanged
      · exact bound_of_same h hopen rfl rfl agreed
      · exact bound_of_same h hopen hchanged.status hchanged.inventory agreed
    rw [Trade.next, if_pos hopen]
    cases r with
    | acceptTrade s checkCast =>
      rcases m.handleAcceptTrade_outcome rules s checkCast with ⟨hstatus, hinventory⟩ | ⟨hdone, hstored⟩
      · exact bound_of_same h hopen hstatus hinventory _
      · refine ⟨fun hstill => ?_, fun _ t item hitem => ?_⟩
        · replace hstill : (m.handleAcceptTrade rules s checkCast).1.status = .isOpen := hstill
          rw [hdone] at hstill
          cases hstill
        · have hoffered : item ∈ m.offeredItems t.other.other := by
            rw [other_other, offeredItems, h.same hopen]
            replace hitem : item ∈ offeredFrom (inventory t) ((m.handleAcceptTrade rules s checkCast).1.data t) := hitem
            rwa [offeredFrom, (hstored t).1] at hitem
          have hfree := eligible_of_canStoreItems (hstored t.other).2 item hoffered
          rwa [other_other] at hfree
    | setTradeGold s gold => exact hoffers _ (m.setMoney_reoffers s _)
    | setTradeItem s tradeSlot bag slot => exact hoffers _ (m.handleSetTradeItem_reoffers s tradeSlot bag slot)
    | clearTradeItem s tradeSlot => exact hoffers _ (m.handleClearTradeItem_reoffers s tradeSlot)
    | setSpell s spell castItem => exact hoffers _ (m.setSpell_reoffers s spell castItem)
    | unacceptTrade s =>
      exact bound_of_same h hopen (show (m.setAccepted s false).status = m.status from rfl) rfl _
    | cancelTrade s => exact ⟨fun hstill => (by cases hstill), fun hdone => (by cases hdone)⟩
  · rw [Trade.next, if_neg hopen]
    exact h

end

def HandsEligible (guid : Side → ℕ) (binding : ℕ → Binding) (inventory : Side → Inventory) (m : Trade) : Prop :=
  ∀ s, ∀ item ∈ offeredFrom (inventory s) (m.data s), (binding item.guid).isBindedNotWith (guid s.other) = false

/-- No completed trade hands out an item that is bound to somebody else. -/
theorem handsEligible_of_reaches {guid : Side → ℕ} {binding : ℕ → Binding} {money : Side → ℕ}
    {inventory : Side → Inventory}
    (h : Reaches (step (rules.withBindings guid binding)) anyStep (Eq (begins money inventory)) m)
    (hcompleted : m.status = .completed) : HandsEligible guid binding inventory m := by
  have hbound : Bound (rules.withBindings guid binding) inventory m := by
    refine h.invariant (fun m hm => ?_) fun m r m' hm _ hstep => ?_
    · subst hm
      exact ⟨fun _ => rfl, fun hdone => (by cases hdone)⟩
    · obtain rfl := Option.some.inj hstep
      exact hm.next r
  exact hbound.completed hcompleted

def sampleBinding (allowed : List ℕ) (guid : ℕ) : Binding := ⟨decide (guid = 1), 11, true, allowed, false⟩

def sampleGuid : Side → ℕ
  | .first => 11
  | .second => 12

theorem handsEligible_of_reaches_looters : ∃ m,
    Reaches (step ((sampleRules 0).withBindings sampleGuid (sampleBinding [11, 12]))) anyStep
      (Eq (begins (fun _ => 100) sampleInventory)) m ∧
    (m.inventory .second).rows = [sampleItem .second, sampleItem .first] ∧
    HandsEligible sampleGuid (sampleBinding [11, 12]) sampleInventory m := by
  obtain ⟨m, hm, htest⟩ := Reaches.exists_of_replay
    (step ((sampleRules 0).withBindings sampleGuid (sampleBinding [11, 12]))) anyStep
    (rfl : begins (fun _ => 100) sampleInventory = _)
    [.setTradeItem .first 0 255 23, .acceptTrade .first (fun _ => true), .acceptTrade .second fun _ => true]
    (replayOk_anyStep ..)
    (fun m => decide (m.status = .completed ∧ (m.inventory .second).rows = [sampleItem .second, sampleItem .first]))
    (by decide +kernel)
  obtain ⟨hcompleted, hrows⟩ := of_decide_eq_true htest
  exact ⟨m, hm, hrows, handsEligible_of_reaches hm hcompleted⟩

/-- For a looter who is not among the allowed the accept that is refused first is refused again. -/
example : (replay (step ((sampleRules 0).withBindings sampleGuid (sampleBinding [11])))
    (begins (fun _ => 100) sampleInventory)
    [.setTradeItem .first 0 255 23, .acceptTrade .first (fun _ => true), .acceptTrade .second fun _ => true]).any
      (fun m => decide (m.status = .isOpen ∧ (m.inventory .second).rows = [sampleItem .second])) = true := by
  decide +kernel

end Trade

end HysteriaCore.Trades

import HysteriaCore.Guilds.BankMoves

/-!
# What a rank may take in a day

The counters of a member agree with the log: every item that he has moved out of
a tab and all the money that he has taken since they were reset.
-/

namespace HysteriaCore.Guilds.Bank
open Lib

theorem and_or_eq_zero {a b c : UInt32} (hb : a &&& b = 0) (hc : a &&& c = 0) : a &&& (b ||| c) = 0 := by
  apply UInt32.toBitVec_inj.mp
  rw [UInt32.toBitVec_and, UInt32.toBitVec_or, BitVec.and_or_distrib_left, ← UInt32.toBitVec_and,
    ← UInt32.toBitVec_and, hb, hc]
  rfl

/-! ### What the log says -/

def BankEvent.moneyBy (guid : ℕ) : BankEvent → ℕ
  | .withdrawMoney g amount | .repairMoney g amount => if g = guid then amount else 0
  | .depositItem .. | .withdrawItem .. | .moveItem .. => 0

def BankEvent.goldBy (guid : ℕ) : BankEvent → ℕ
  | .withdrawMoney g amount => if g = guid then amount else 0
  | .repairMoney .. | .depositItem .. | .withdrawItem .. | .moveItem .. => 0

def BankEvent.goldNotBy (guid : ℕ) : BankEvent → ℕ
  | .withdrawMoney g amount => if g = guid then 0 else amount
  | .repairMoney .. | .depositItem .. | .withdrawItem .. | .moveItem .. => 0

def BankEvent.repair : BankEvent → ℕ
  | .repairMoney _ amount => amount
  | .withdrawMoney .. | .depositItem .. | .withdrawItem .. | .moveItem .. => 0

def BankEvent.movedBy (guid tab : ℕ) : BankEvent → ℕ
  | .withdrawItem t g | .moveItem t g _ => if t = tab ∧ g = guid then 1 else 0
  | .depositItem .. | .withdrawMoney .. | .repairMoney .. => 0

namespace World
variable (w : World)

def logged (f : BankEvent → ℕ) : ℕ := (w.log.map f).sum

def moneyTaken (guid : ℕ) : ℕ := w.logged (BankEvent.moneyBy guid)

def goldTaken (guid : ℕ) : ℕ := w.logged (BankEvent.goldBy guid)

def movesOut (guid tab : ℕ) : ℕ := w.logged (BankEvent.movedBy guid tab)

/-- The counters of a member are what the log says, and within what his rank may take. -/
structure Counted (m : Member) : Prop where
  money : m.bankWithdraw guildBankMaxTabs = w.moneyTaken m.guid
  moves : ∀ tab < guildBankMaxTabs, m.bankWithdraw tab = w.movesOut m.guid tab
  moneyLe : w.moneyTaken m.guid = 0 ∨ (w.moneyTaken m.guid : ℤ) ≤ w.getRankBankMoneyPerDay m.rank
  movesLe : ∀ tab, w.movesOut m.guid tab = 0 ∨
    w.getRankBankTabRights m.rank tab &&& bankRightViewTab ≠ 0 ∧
      (w.movesOut m.guid tab : ℤ) ≤ w.getRankBankTabSlotsPerDay m.rank tab
  goldRight : w.goldTaken m.guid = 0 ∨ w.getRankRights m.rank &&& rightWithdrawGold ≠ 0

def AllCounted : Prop := ∀ m ∈ w.members, m.rank ≠ guildMaster → w.Counted m

variable {w} {w' : World} {guid tab : ℕ} {m : Member}

/-! ### Settings -/

theorem getRankInfo_congr (h : w'.ranks = w.ranks) : w'.getRankInfo = w.getRankInfo := by
  unfold getRankInfo
  rw [h]

theorem settings_congr (hranks : w'.ranks = w.ranks) (htabs : w'.purchasedTabs = w.purchasedTabs) :
    w'.getRankRights = w.getRankRights ∧ w'.getRankBankMoneyPerDay = w.getRankBankMoneyPerDay ∧
      w'.getRankBankTabSlotsPerDay = w.getRankBankTabSlotsPerDay ∧
      w'.getRankBankTabRights = w.getRankBankTabRights := by
  have hinfo := getRankInfo_congr hranks
  refine ⟨?_, ?_, ?_, ?_⟩
  · unfold getRankRights
    rw [hinfo]
  · unfold getRankBankMoneyPerDay bankMoneyPerDay
    rw [hinfo]
  · unfold getRankBankTabSlotsPerDay bankTabSlotsPerDay
    rw [hinfo, htabs]
  · unfold getRankBankTabRights
    rw [hinfo]

theorem Counted.congr (h : w.Counted m) (hranks : w'.ranks = w.ranks) (htabs : w'.purchasedTabs = w.purchasedTabs)
    (hmoney : w'.moneyTaken m.guid = w.moneyTaken m.guid)
    (hmoves : ∀ tab, w'.movesOut m.guid tab = w.movesOut m.guid tab)
    (hgold : w'.goldTaken m.guid = w.goldTaken m.guid) : w'.Counted m := by
  obtain ⟨hrights, hperDay, hslots, htab⟩ := settings_congr hranks htabs
  refine ⟨hmoney ▸ h.money, fun tab hlt => (hmoves tab).symm ▸ h.moves tab hlt, ?_, fun tab => ?_, ?_⟩
  · rw [hmoney, hperDay]
    exact h.moneyLe
  · rw [hmoves, htab, hslots]
    exact h.movesLe tab
  · rw [hgold, hrights]
    exact h.goldRight

/-! ### An item leaves a tab -/

theorem Counted.remainingSlots (h : w.Counted m) (hrank : m.rank ≠ guildMaster) (htab : tab < guildBankMaxTabs)
    (hrem : w.getMemberRemainingSlots m tab ≠ 0) :
    w.getRankBankTabRights m.rank tab &&& bankRightViewTab ≠ 0 ∧
      (w.movesOut m.guid tab : ℤ) + 1 ≤ w.getRankBankTabSlotsPerDay m.rank tab := by
  unfold getMemberRemainingSlots at hrem
  rw [if_neg hrank] at hrem
  split at hrem
  · exact absurd rfl hrem
  · rename_i hview
    refine ⟨hview, ?_⟩
    dsimp only at hrem
    have hwithdraw : m.getBankWithdrawValue tab = w.movesOut m.guid tab := (if_neg hrank).trans (h.moves tab htab)
    have hhigh := toInt32_lt (w.bankTabSlotsPerDay m.rank tab)
    have hlow := le_toInt32 (w.bankTabSlotsPerDay m.rank tab)
    have hslots : w.getRankBankTabSlotsPerDay m.rank tab = toInt32 (w.bankTabSlotsPerDay m.rank tab) := rfl
    rw [hwithdraw] at hrem
    -- the difference stays in range, because either nothing was taken or not more than there is
    have hrange : toInt32 (w.getRankBankTabSlotsPerDay m.rank tab - w.movesOut m.guid tab) =
        w.getRankBankTabSlotsPerDay m.rank tab - w.movesOut m.guid tab := by
      rcases h.movesLe tab with hzero | ⟨-, hle⟩
      · rw [hzero]
        exact toInt32_of_range (by omega) (by omega)
      · exact toInt32_of_range (by omega) (by omega)
    rw [hrange] at hrem
    split at hrem
    · omega
    · exact absurd rfl hrem

theorem mem_updateMemberWithdrawSlots {x : Member} : x ∈ (w.updateMemberWithdrawSlots guid tab).members ↔
    ∃ m ∈ w.members, (if m.guid = guid then
      if m.rank ≠ guildMaster ∧ m.getBankWithdrawValue tab < w.getRankBankTabSlotsPerDay m.rank tab then
        m.updateBankWithdrawValue tab 1
      else m
    else m) = x :=
  w.members.mem_adjust guid
    (fun m =>
      if m.rank ≠ guildMaster ∧ m.getBankWithdrawValue tab < w.getRankBankTabSlotsPerDay m.rank tab then
        m.updateBankWithdrawValue tab 1
      else m)
    (fun m => by split <;> rfl) x

def countOut (w : World) (guid tab : ℕ) (event : BankEvent) : World :=
  { w.updateMemberWithdrawSlots guid tab with log := event :: w.log }

variable {event : BankEvent}

theorem AllCounted.countOut (h : w.AllCounted) (htab : tab < guildBankMaxTabs)
    (hevent : event = .withdrawItem tab guid ∨ ∃ dest, event = .moveItem tab guid dest)
    (hrem : ∀ m ∈ w.members, m.guid = guid → w.getMemberRemainingSlots m tab ≠ 0) :
    (w.countOut guid tab event).AllCounted := by
  have hmoney (g : ℕ) : (w.countOut guid tab event).moneyTaken g = w.moneyTaken g := by
    rcases hevent with rfl | ⟨dest, rfl⟩ <;>
      simp [World.countOut, moneyTaken, logged, BankEvent.moneyBy]
  have hgold (g : ℕ) : (w.countOut guid tab event).goldTaken g = w.goldTaken g := by
    rcases hevent with rfl | ⟨dest, rfl⟩ <;>
      simp [World.countOut, goldTaken, logged, BankEvent.goldBy]
  have hmoves (g t : ℕ) : (w.countOut guid tab event).movesOut g t =
      (if tab = t ∧ guid = g then 1 else 0) + w.movesOut g t := by
    rcases hevent with rfl | ⟨dest, rfl⟩ <;>
      simp [World.countOut, movesOut, logged, BankEvent.movedBy]
  intro m' hm' hrank
  obtain ⟨m, hm, rfl⟩ := mem_updateMemberWithdrawSlots.mp hm'
  by_cases hguid : m.guid = guid
  · rw [if_pos hguid] at hrank ⊢
    have hrank : m.rank ≠ guildMaster := by
      split at hrank <;> exact hrank
    have hcounted := h m hm hrank
    obtain ⟨hview, hroom⟩ := hcounted.remainingSlots hrank htab (hrem m hm hguid)
    have hwithdraw : m.getBankWithdrawValue tab = w.movesOut m.guid tab :=
      (if_neg hrank).trans (hcounted.moves tab htab)
    have hhigh := toInt32_lt (w.bankTabSlotsPerDay m.rank tab)
    have hslots : w.getRankBankTabSlotsPerDay m.rank tab = toInt32 (w.bankTabSlotsPerDay m.rank tab) := rfl
    rw [if_pos ⟨hrank, by omega⟩]
    refine ⟨?_, fun t ht => ?_, ?_, fun t => ?_, ?_⟩
    · show (if guildBankMaxTabs = tab then _ else m.bankWithdraw guildBankMaxTabs) = _
      rw [if_neg (by omega), hmoney]
      exact hcounted.money
    · show (if t = tab then toInt32 (m.bankWithdraw t + (1 : ℕ)) else m.bankWithdraw t) = _
      rw [hmoves]
      by_cases heq : t = tab
      · subst heq
        rw [if_pos rfl, if_pos ⟨rfl, hguid.symm⟩, hcounted.moves t ht,
          toInt32_of_range (by omega) (by omega)]
        show _ = ((1 + w.movesOut m.guid t : ℕ) : ℤ)
        omega
      · rw [if_neg heq, if_neg (by simp [Ne.symm heq]), hcounted.moves t ht, Nat.zero_add]
        rfl
    · rw [hmoney]
      exact hcounted.moneyLe
    · rw [hmoves]
      by_cases heq : tab = t
      · subst heq
        rw [if_pos ⟨rfl, hguid.symm⟩]
        refine .inr ⟨hview, ?_⟩
        show ((1 + w.movesOut m.guid tab : ℕ) : ℤ) ≤ w.getRankBankTabSlotsPerDay m.rank tab
        omega
      · rw [if_neg (by simp [heq]), Nat.zero_add]
        exact hcounted.movesLe t
    · rw [hgold]
      exact hcounted.goldRight
  · rw [if_neg hguid] at hrank ⊢
    refine (h m hm hrank).congr rfl rfl (hmoney m.guid) (fun t => ?_) (hgold m.guid)
    rw [hmoves, if_neg (by simp [Ne.symm hguid]), Nat.zero_add]

/-! ### Moves -/

variable {rules : Rules} {p other src dest : Place}

theorem AllCounted.congr (h : w.AllCounted) (hmembers : w'.members = w.members) (hranks : w'.ranks = w.ranks)
    (htabs : w'.purchasedTabs = w.purchasedTabs)
    (hlog : w'.log = w.log ∨ ∃ tab guid, w'.log = .depositItem tab guid :: w.log) : w'.AllCounted := by
  have hlogged (f : BankEvent → ℕ) (hf : ∀ tab guid, f (.depositItem tab guid) = 0) : w'.logged f = w.logged f := by
    unfold logged
    rcases hlog with heq | ⟨tab, guid, heq⟩
    · rw [heq]
    · rw [heq, List.map_cons, List.sum_cons, hf, Nat.zero_add]
  intro m hm hrank
  rw [hmembers] at hm
  exact (h m hm hrank).congr hranks htabs (hlogged _ fun _ _ => rfl) (fun _ => hlogged _ fun _ _ => rfl)
    (hlogged _ fun _ _ => rfl)

theorem remaining_of_hasWithdrawRights {slot : ℕ} (hother : other.tab? ≠ some tab)
    (h : w.hasWithdrawRights guid (.bank tab slot) other = true) :
    ∀ m ∈ w.members, m.guid = guid → w.getMemberRemainingSlots m tab ≠ 0 := by
  intro m hm hguid
  have hget : w.getMember guid = some m := (w.members.find?_eq_some_iff guid m).mpr ⟨hm, hguid⟩
  simp only [hasWithdrawRights, hget, Option.any_some, Bool.or_eq_true, decide_eq_true_eq] at h
  exact h.resolve_left hother

theorem AllCounted.pass (h : w.AllCounted) (htab : ∀ tab ∈ p.tab?, tab < guildBankMaxTabs)
    (hrights : w.hasWithdrawRights guid p other = true) (n : ℕ) :
    ((w.logBankEvent guid other p).removeItem guid p other n).AllCounted := by
  cases p with
  | inventory g bag slot =>
    cases other with
    | inventory g' bag' slot' => exact h.congr rfl rfl rfl (.inl rfl)
    | bank tab' slot' => exact h.congr rfl rfl rfl (.inr ⟨tab', guid, rfl⟩)
  | bank tab slot =>
    have hlt := htab tab rfl
    by_cases hsame : other.tab? = some tab
    · have hlog : w.logBankEvent guid other (.bank tab slot) = w := by
        cases other with
        | inventory g' bag' slot' => exact absurd hsame (by simp [Place.tab?])
        | bank tab' slot' => exact if_pos (Option.some.inj hsame).symm
      rw [hlog]
      show AllCounted (if other.tab? = some tab then _ else _)
      rw [if_pos hsame]
      exact h.congr rfl rfl rfl (.inl rfl)
    · have hrem := remaining_of_hasWithdrawRights hsame hrights
      show AllCounted (if other.tab? = some tab then _ else _)
      rw [if_neg hsame]
      cases other with
      | inventory g' bag' slot' =>
        exact (h.countOut hlt (.inl rfl) hrem).congr rfl rfl rfl (.inl rfl)
      | bank tab' slot' =>
        have hne : tab ≠ tab' := fun heq => hsame (by rw [heq]; rfl)
        have hlog : w.logBankEvent guid (.bank tab' slot') (.bank tab slot) =
            { w with log := .moveItem tab guid tab' :: w.log } := if_neg hne
        rw [hlog]
        exact (h.countOut hlt (.inr ⟨tab', rfl⟩) hrem).congr rfl rfl rfl (.inl rfl)

theorem remainingSlots_update {tab' : ℕ} (hne : tab' ≠ tab) (n : ℕ) :
    w.getMemberRemainingSlots (m.updateBankWithdrawValue tab n) tab' = w.getMemberRemainingSlots m tab' := by
  have hvalue : (m.updateBankWithdrawValue tab n).getBankWithdrawValue tab' = m.getBankWithdrawValue tab' := by
    unfold Member.getBankWithdrawValue Member.updateBankWithdrawValue
    dsimp only
    rw [if_neg hne]
  unfold getMemberRemainingSlots
  rw [hvalue]
  rfl

theorem hasWithdrawRights_update (hdest : dest.tab? ≠ some tab) (h : w.hasWithdrawRights guid dest other = true) :
    (w.updateMemberWithdrawSlots guid tab).hasWithdrawRights guid dest other = true := by
  cases dest with
  | inventory g bag slot => rfl
  | bank tab' slot =>
    have hne : tab' ≠ tab := fun heq => hdest (by rw [heq]; rfl)
    simp only [hasWithdrawRights, Bool.or_eq_true] at h ⊢
    refine h.imp_right fun hany => ?_
    have hget : (w.updateMemberWithdrawSlots guid tab).getMember guid = (w.getMember guid).map fun m =>
        if m.rank ≠ guildMaster ∧ m.getBankWithdrawValue tab < w.getRankBankTabSlotsPerDay m.rank tab then
          m.updateBankWithdrawValue tab 1
        else m := by
      refine (w.members.find?_adjust guid guid _ (fun m => by split <;> rfl)).trans (congrArg (Option.map · _) ?_)
      funext m
      exact if_pos rfl
    cases hm : w.getMember guid with
    | none =>
      rw [hm] at hany
      exact absurd hany (by simp)
    | some m =>
      rw [hm, Option.any_some, decide_eq_true_eq] at hany
      rw [hget, hm, Option.map_some, Option.any_some, decide_eq_true_eq]
      split
      · exact (remainingSlots_update hne 1).trans_ne hany
      · exact hany

theorem hasWithdrawRights_congr (hmembers : w'.members = w.members) (hranks : w'.ranks = w.ranks)
    (htabs : w'.purchasedTabs = w.purchasedTabs) :
    w'.hasWithdrawRights guid p other = w.hasWithdrawRights guid p other := by
  obtain ⟨-, -, hslots, hrights⟩ := settings_congr hranks htabs
  unfold hasWithdrawRights getMember getMemberRemainingSlots
  rw [hmembers, hslots, hrights]

theorem hasWithdrawRights_removeItem (n : ℕ) (h : w.hasWithdrawRights guid dest src = true) :
    ((w.logBankEvent guid dest src).removeItem guid src dest n).hasWithdrawRights guid dest src = true := by
  have hlog : (w.logBankEvent guid dest src).members = w.members ∧
      (w.logBankEvent guid dest src).ranks = w.ranks ∧
      (w.logBankEvent guid dest src).purchasedTabs = w.purchasedTabs := by
    unfold logBankEvent
    split
    · split <;> exact ⟨rfl, rfl, rfl⟩
    all_goals exact ⟨rfl, rfl, rfl⟩
  have hkeep : (w.logBankEvent guid dest src).hasWithdrawRights guid dest src = true :=
    (hasWithdrawRights_congr hlog.1 hlog.2.1 hlog.2.2).trans h
  generalize w.logBankEvent guid dest src = w₁ at hkeep
  cases src with
  | inventory g bag slot => exact (hasWithdrawRights_congr rfl rfl rfl).trans hkeep
  | bank tab slot =>
    by_cases hsame : dest.tab? = some tab
    · show hasWithdrawRights (if dest.tab? = some tab then _ else _) _ _ _ = true
      rw [if_pos hsame]
      exact (hasWithdrawRights_congr rfl rfl rfl).trans hkeep
    · show hasWithdrawRights (if dest.tab? = some tab then _ else _) _ _ _ = true
      rw [if_neg hsame]
      exact (hasWithdrawRights_congr rfl rfl rfl).trans (hasWithdrawRights_update hsame hkeep)

theorem logBankEvent_removeItem (w : World) (guid : ℕ) (a b p other : Place) (n : ℕ) :
    (w.removeItem guid p other n).logBankEvent guid a b = (w.logBankEvent guid a b).removeItem guid p other n := by
  unfold logBankEvent removeItem
  cases a <;> cases b <;> cases p <;> dsimp only
  all_goals repeat' split
  all_goals rfl

theorem getItem_tab {item : Item} (h : w.getItem p = some item) : ∀ tab ∈ p.tab?, tab < guildBankMaxTabs := by
  intro tab htab
  cases p with
  | inventory g bag slot => exact absurd htab (by simp [Place.tab?])
  | bank t slot =>
    rw [← Option.some.inj htab]
    by_cases hvalid : t < w.purchasedTabs ∧ slot < guildBankMaxSlots
    · exact hvalid.1.trans_le w.purchasedTabs_le
    · exact absurd ((if_neg hvalid).symm.trans h) (by simp)

theorem AllCounted.moveItems (h : w.AllCounted) (rules : Rules) (guid : ℕ) (src dest : Place) (split : ℕ) :
    (w.moveItems rules guid src dest split).AllCounted := by
  rcases moveItems_cases rules w guid src dest split with
    heq | ⟨item, split', hinit, -, -, hrights, hmove | ⟨-, -, destItem, hinitd, -, hback, hex⟩⟩
  · rw [heq]
    exact h
  · obtain ⟨vec, -, hdone⟩ := Option.map_eq_some_iff.mp hmove
    rw [← hdone]
    exact (h.pass (getItem_tab (getItem_of_initItem hinit)) hrights split').congr rfl rfl rfl (.inl rfl)
  · obtain ⟨vec, -, hex⟩ := Option.bind_eq_some_iff.mp hex
    obtain ⟨vec', -, hdone⟩ := Option.map_eq_some_iff.mp hex
    rw [← hdone]
    -- one item after the other
    have hsrc := h.pass (getItem_tab (getItem_of_initItem hinit)) hrights 0
    have hdest := hsrc.pass (getItem_tab (getItem_of_initItem hinitd)) (hasWithdrawRights_removeItem 0 hback) 0
    rw [logBankEvent_removeItem] at hdest
    exact hdest.congr rfl rfl rfl (.inl rfl)

/-! ### Money -/

theorem mem_withdrawMoney {n money : ℕ} {x : Member} :
    x ∈ (w.withdrawMoney guid n event money).members ↔
    ∃ m ∈ w.members, (if m.guid = guid then m.updateBankWithdrawValue guildBankMaxTabs n else m) = x :=
  w.members.mem_adjust guid (fun m => m.updateBankWithdrawValue guildBankMaxTabs n) (fun _ => rfl) x

theorem Counted.remainingMoney (h : w.Counted m) (hrank : m.rank ≠ guildMaster) {n : ℕ}
    (hrem : n ≤ (w.getMemberRemainingMoney m % 2^32).toNat) :
    n = 0 ∨ w.getRankRights m.rank &&& (rightWithdrawRepair ||| rightWithdrawGold) ≠ 0 ∧
      (w.moneyTaken m.guid : ℤ) + n ≤ w.getRankBankMoneyPerDay m.rank := by
  unfold getMemberRemainingMoney at hrem
  rw [if_neg hrank] at hrem
  split at hrem
  · exact .inl (by simpa using hrem)
  · rename_i hrights
    dsimp only at hrem
    have hwithdraw : m.getBankWithdrawValue guildBankMaxTabs = w.moneyTaken m.guid := (if_neg hrank).trans h.money
    have hhigh := toInt32_lt (w.bankMoneyPerDay m.rank)
    have hlow := le_toInt32 (w.bankMoneyPerDay m.rank)
    have hperDay : w.getRankBankMoneyPerDay m.rank = toInt32 (w.bankMoneyPerDay m.rank) := rfl
    rw [hwithdraw] at hrem
    have hrange : toInt32 (w.getRankBankMoneyPerDay m.rank - w.moneyTaken m.guid) =
        w.getRankBankMoneyPerDay m.rank - w.moneyTaken m.guid := by
      rcases h.moneyLe with hzero | hle
      · rw [hzero]
        exact toInt32_of_range (by omega) (by omega)
      · exact toInt32_of_range (by omega) (by omega)
    rw [hrange] at hrem
    split at hrem
    · exact .inr ⟨hrights, by omega⟩
    · exact .inl (by simpa using hrem)

theorem AllCounted.withdrawMoney (h : w.AllCounted) (hm : w.getMember guid = some m) {n money : ℕ}
    (hrem : n ≤ (w.getMemberRemainingMoney m % 2^32).toNat)
    (hmoney : ∀ g, event.moneyBy g = if guid = g then n else 0) (hmoves : ∀ g tab, event.movedBy g tab = 0)
    (hothers : ∀ g, guid ≠ g → event.goldBy g = 0)
    (hgold : m.rank ≠ guildMaster → event.goldBy guid = 0 ∨ w.getRankRights m.rank &&& rightWithdrawGold ≠ 0) :
    (w.withdrawMoney guid n event money).AllCounted := by
  obtain ⟨hmem, hguid⟩ := (w.members.find?_eq_some_iff guid m).mp hm
  have hmoney' (g : ℕ) : (w.withdrawMoney guid n event money).moneyTaken g =
      (if guid = g then n else 0) + w.moneyTaken g := by
    simp [World.withdrawMoney, moneyTaken, logged, hmoney]
  have hmoves' (g tab : ℕ) : (w.withdrawMoney guid n event money).movesOut g tab = w.movesOut g tab := by
    simp [World.withdrawMoney, movesOut, logged, hmoves]
  have hgold' (g : ℕ) : (w.withdrawMoney guid n event money).goldTaken g = event.goldBy g + w.goldTaken g := by
    simp [World.withdrawMoney, goldTaken, logged]
  intro x hx hrank
  obtain ⟨y, hy, rfl⟩ := mem_withdrawMoney.mp hx
  by_cases hyg : y.guid = guid
  · have heq : y = m := w.members.eq_of_key_eq hy hmem (hyg.trans hguid.symm)
    subst heq
    rw [if_pos hyg] at hrank ⊢
    have hrank : y.rank ≠ guildMaster := hrank
    have hcounted := h y hy hrank
    have hroom := hcounted.remainingMoney hrank hrem
    have hhigh := toInt32_lt (w.bankMoneyPerDay y.rank)
    have hperDay : w.getRankBankMoneyPerDay y.rank = toInt32 (w.bankMoneyPerDay y.rank) := rfl
    have hle := hcounted.moneyLe
    have hself : (w.withdrawMoney guid n event money).moneyTaken y.guid = n + w.moneyTaken y.guid := by
      rw [hmoney', if_pos hguid.symm]
    refine ⟨?_, fun tab htab => ?_, ?_, fun tab => ?_, ?_⟩
    · show (if guildBankMaxTabs = guildBankMaxTabs then toInt32 (y.bankWithdraw guildBankMaxTabs + n)
        else y.bankWithdraw guildBankMaxTabs) = ((w.withdrawMoney guid n event money).moneyTaken y.guid : ℤ)
      rw [if_pos rfl, hself, hcounted.money, toInt32_of_range (by omega) (by omega)]
      omega
    · show (if tab = guildBankMaxTabs then _ else y.bankWithdraw tab) = _
      rw [if_neg (by omega), hmoves']
      exact hcounted.moves tab htab
    · show (w.withdrawMoney guid n event money).moneyTaken y.guid = 0 ∨
        ((w.withdrawMoney guid n event money).moneyTaken y.guid : ℤ) ≤ w.getRankBankMoneyPerDay y.rank
      rw [hself]
      omega
    · rw [hmoves']
      exact hcounted.movesLe tab
    · rw [hgold']
      show event.goldBy y.guid + w.goldTaken y.guid = 0 ∨ _
      rcases hgold hrank with hzero | hright
      · rw [hguid, hzero, Nat.zero_add, ← hguid]
        exact hcounted.goldRight
      · exact .inr hright
  · rw [if_neg hyg] at hrank ⊢
    refine (h y hy hrank).congr rfl rfl ?_ (hmoves' y.guid) ?_
    · rw [hmoney', if_neg (Ne.symm hyg), Nat.zero_add]
    · rw [hgold', hothers y.guid (Ne.symm hyg), Nat.zero_add]

/-- No gold for a rank that may only repair: he asks for none, or for more than
he has left, the bank has or his purse can take. -/
def KeepsGold (w : World) : Event → Prop
  | .withdrawMoney guid amount false => ∀ m ∈ w.getMember guid,
    m.rank = guildMaster ∨ w.getRankRights m.rank &&& rightWithdrawGold ≠ 0 ∨
      w.getRankRights m.rank &&& rightWithdrawRepair = 0 ∨ amount = 0 ∨
      w.bankMoney < min amount Objects.maxMoneyAmount ∨
      (w.getMemberRemainingMoney m % 2^32).toNat < min amount Objects.maxMoneyAmount ∨
      (Objects.modifyMoney (w.money guid) (min amount Objects.maxMoneyAmount : ℕ)).1 = false
  | _ => True

instance (w : World) : (e : Event) → Decidable (w.KeepsGold e)
  | .withdrawMoney guid amount false => inferInstanceAs (Decidable (∀ m ∈ w.getMember guid,
    m.rank = guildMaster ∨ w.getRankRights m.rank &&& rightWithdrawGold ≠ 0 ∨
      w.getRankRights m.rank &&& rightWithdrawRepair = 0 ∨ amount = 0 ∨
      w.bankMoney < min amount Objects.maxMoneyAmount ∨
      (w.getMemberRemainingMoney m % 2^32).toNat < min amount Objects.maxMoneyAmount ∨
      (Objects.modifyMoney (w.money guid) (min amount Objects.maxMoneyAmount : ℕ)).1 = false))
  | .withdrawMoney _ _ true | .swapItems .. | .swapItemsWithInventory .. => .isTrue trivial

theorem AllCounted.handleMemberWithdrawMoney (h : w.AllCounted) {amount : ℕ} {repair : Bool}
    (hok : w.KeepsGold (.withdrawMoney guid amount repair)) :
    (w.handleMemberWithdrawMoney guid amount repair).AllCounted := by
  rcases w.handleMemberWithdrawMoney_cases guid amount repair with
    heq | ⟨m, n, hm, hbank, hrem, rfl, ⟨-, heq⟩ | ⟨rfl, hpaid, heq⟩⟩
  · rw [heq]
    exact h
  · rw [heq]
    exact h.withdrawMoney hm hrem (fun _ => rfl) (fun _ _ => rfl) (fun _ _ => rfl) fun _ => .inl rfl
  · rw [heq]
    refine h.withdrawMoney hm hrem (fun _ => rfl) (fun _ _ => rfl) (fun g hg => if_neg hg) fun hrank => ?_
    have hgold : (BankEvent.withdrawMoney guid (min amount Objects.maxMoneyAmount)).goldBy guid =
      min amount Objects.maxMoneyAmount := if_pos rfl
    rw [hgold]
    have hmem := ((w.members.find?_eq_some_iff guid m).mp hm).1
    rcases hok m hm with hmaster | hright | hrepair | hzero | hfew | hlimit | hfull
    · exact absurd hmaster hrank
    · exact .inr hright
    · -- neither right: nothing is left for the day
      by_cases hright : w.getRankRights m.rank &&& rightWithdrawGold = 0
      · rcases (h m hmem hrank).remainingMoney hrank hrem with hzero | ⟨hrights, -⟩
        · exact .inl hzero
        · exact absurd (and_or_eq_zero hrepair hright) hrights
      · exact .inr hright
    · left
      omega
    · omega
    · omega
    · exact absurd (hpaid.symm.trans hfull) (by simp)

/-! ### A day -/

def repaid (w : World) : ℕ := w.logged BankEvent.repair

def goldOfOthers (w : World) (guid : ℕ) : ℕ := w.logged (BankEvent.goldNotBy guid)

/-- A member stays within what his rank may take, and money moves between the
bank and his purse only, apart from what is paid for repairs or to others. -/
structure WithinLimits (w s : World) (m : Member) : Prop where
  money : w.moneyTaken m.guid ≤ w.bankMoneyPerDay m.rank
  moves : ∀ tab, w.movesOut m.guid tab ≤ w.bankTabSlotsPerDay m.rank tab
  hidden : ∀ tab, w.getRankBankTabRights m.rank tab &&& bankRightViewTab = 0 → w.movesOut m.guid tab = 0
  gold : w.goldTaken m.guid ≠ 0 → w.getRankRights m.rank &&& rightWithdrawGold ≠ 0
  balance : w.bankMoney + w.money m.guid + w.repaid + w.goldOfOthers m.guid = s.bankMoney + s.money m.guid

/-- `ResetTimes`: nothing is counted, and nothing has been logged since. -/
structure Reset (w : World) : Prop where
  log : w.log = []
  members : ∀ m ∈ w.members, ∀ tab, m.bankWithdraw tab = 0

theorem Reset.allCounted (h : w.Reset) : w.AllCounted := by
  have hlogged (f : BankEvent → ℕ) : w.logged f = 0 := by
    unfold logged
    rw [h.log]
    rfl
  intro m hm _
  refine ⟨?_, fun tab _ => ?_, .inl (hlogged _), fun tab => .inl (hlogged _), .inl (hlogged _)⟩
  · rw [h.members m hm, moneyTaken, hlogged]
    rfl
  · rw [h.members m hm, movesOut, hlogged]
    rfl

theorem AllCounted.next (h : w.AllCounted) (rules : Rules) {e : Event} (hok : w.KeepsGold e) :
    (w.next rules e).AllCounted := by
  cases e with
  | swapItems guid tab slot destTab destSlot split =>
    simp only [World.next, swapItems]
    split
    · exact h
    · split
      · exact h
      · exact h.moveItems rules guid _ _ split
  | swapItemsWithInventory guid toChar tab slot bag playerSlot split =>
    simp only [World.next, swapItemsWithInventory]
    split
    · exact h
    · split
      · exact h.moveItems rules guid _ _ split
      · exact h.moveItems rules guid _ _ split
  | withdrawMoney guid amount repair => exact h.handleMemberWithdrawMoney hok

def balance (w : World) (guid : ℕ) : ℕ := w.bankMoney + w.money guid + w.repaid + w.goldOfOthers guid

theorem balance_logBankEvent (w : World) (actor : ℕ) (p q : Place) (guid : ℕ) :
    (w.logBankEvent actor p q).balance guid = w.balance guid := by
  unfold logBankEvent
  split
  · split <;> simp [balance, repaid, goldOfOthers, logged, BankEvent.repair, BankEvent.goldNotBy]
  all_goals simp [balance, repaid, goldOfOthers, logged, BankEvent.repair, BankEvent.goldNotBy]

theorem balance_removeItem (w : World) (actor : ℕ) (p other : Place) (n guid : ℕ) :
    (w.removeItem actor p other n).balance guid = w.balance guid := by
  unfold removeItem
  cases p with
  | inventory g bag slot => rfl
  | bank tab slot =>
    dsimp only
    split <;> rfl

theorem balance_moveItems (w : World) (rules : Rules) (actor : ℕ) (src dest : Place) (split guid : ℕ) :
    (w.moveItems rules actor src dest split).balance guid = w.balance guid := by
  rcases moveItems_cases rules w actor src dest split with
    heq | ⟨item, split', -, -, -, -, hmove | ⟨-, -, destItem, -, -, -, hex⟩⟩
  · rw [heq]
  · obtain ⟨vec, -, hdone⟩ := Option.map_eq_some_iff.mp hmove
    rw [← hdone]
    exact (balance_removeItem ..).trans (balance_logBankEvent ..)
  · obtain ⟨vec, -, hex⟩ := Option.bind_eq_some_iff.mp hex
    obtain ⟨vec', -, hdone⟩ := Option.map_eq_some_iff.mp hex
    rw [← hdone]
    exact ((balance_removeItem ..).trans (balance_removeItem ..)).trans
      ((balance_logBankEvent ..).trans (balance_logBankEvent ..))

theorem balance_next (w : World) (rules : Rules) (e : Event) (guid : ℕ) :
    (w.next rules e).balance guid = w.balance guid := by
  cases e with
  | swapItems actor tab slot destTab destSlot split =>
    simp only [next, swapItems]
    split
    · rfl
    · split
      · rfl
      · exact balance_moveItems ..
  | swapItemsWithInventory actor toChar tab slot bag playerSlot split =>
    simp only [next, swapItemsWithInventory]
    split
    · rfl
    · split <;> exact balance_moveItems ..
  | withdrawMoney actor amount repair =>
    rcases w.handleMemberWithdrawMoney_cases actor amount repair with
      heq | ⟨m, n, -, hbank, -, -, ⟨-, heq⟩ | ⟨-, -, heq⟩⟩
    · exact congrArg (fun w => w.balance guid) heq
    · refine (congrArg (fun w => w.balance guid) heq).trans ?_
      simp only [balance, withdrawMoney, repaid, goldOfOthers, logged, List.map_cons, List.sum_cons,
        BankEvent.repair, BankEvent.goldNotBy, Nat.zero_add]
      split
      · rename_i hg
        rw [hg]
        omega
      · omega
    · refine (congrArg (fun w => w.balance guid) heq).trans ?_
      simp only [balance, withdrawMoney, repaid, goldOfOthers, logged, List.map_cons, List.sum_cons,
        BankEvent.repair, BankEvent.goldNotBy, Nat.zero_add]
      by_cases hg : guid = actor
      · subst hg
        rw [if_pos rfl, if_pos rfl]
        omega
      · rw [if_neg hg, if_neg (Ne.symm hg)]
        omega

end World

def step (rules : Rules) (w : World) (e : Event) : Option World := some (w.next rules e)

namespace World
variable {rules : Rules} {s w : World} {m : Member}

/-- Whatever the members ask for after their counters were reset, each stays
within the limits of his rank, as long as nobody who may only repair takes gold. -/
theorem withinLimits_of_reaches (hstart : s.Reset) (h : Reaches (step rules) KeepsGold (Eq s) w)
    (hm : m ∈ w.members) (hrank : m.rank ≠ guildMaster) : w.WithinLimits s m := by
  have hinv : w.AllCounted ∧ ∀ guid, w.balance guid = s.bankMoney + s.money guid := by
    refine h.invariant (I := fun w => w.AllCounted ∧ ∀ guid, w.balance guid = s.bankMoney + s.money guid)
      (fun w hw => ?_) fun w e t hw hok ht => ?_
    · subst hw
      refine ⟨hstart.allCounted, fun guid => ?_⟩
      simp [balance, repaid, goldOfOthers, logged, hstart.log]
    · rw [← Option.some.inj ht]
      exact ⟨hw.1.next rules hok, fun guid => (balance_next w rules e guid).trans (hw.2 guid)⟩
  have hcounted := hinv.1 m hm hrank
  refine ⟨?_, fun tab => ?_, fun tab hview => ?_, fun htaken => ?_, hinv.2 m.guid⟩
  · have hsetting := toInt32_natCast_le (w.bankMoneyPerDay m.rank)
    have hle := hcounted.moneyLe
    unfold getRankBankMoneyPerDay at hle
    omega
  · have hsetting := toInt32_natCast_le (w.bankTabSlotsPerDay m.rank tab)
    rcases hcounted.movesLe tab with hzero | ⟨-, hle⟩
    · omega
    · unfold getRankBankTabSlotsPerDay at hle
      omega
  · rcases hcounted.movesLe tab with hzero | ⟨hshown, -⟩
    · exact hzero
    · exact absurd hview hshown
  · exact hcounted.goldRight.resolve_left htaken

theorem sampleWorld_reset : sampleWorld.Reset := by
  refine ⟨rfl, fun m hm tab => ?_⟩
  rcases (KeyedList.mem_put ..).mp hm with rfl | ⟨hm, -⟩
  · rfl
  · exact absurd hm (by simp [KeyedList.mem_rows, KeyedList.empty])

theorem withinLimits_of_reaches_sample : ∃ w : World, ∃ m ∈ w.members, w.bankMoney = 470 ∧
    w.movesOut m.guid 0 = 2 ∧ w.WithinLimits sampleWorld m := by
  obtain ⟨w, hw, hp⟩ := Reaches.exists_of_replay (step sampleRules) KeepsGold (rfl : sampleWorld = sampleWorld)
    [.withdrawMoney 1 30 true, .swapItemsWithInventory 1 true 0 0 255 23 5,
      .swapItemsWithInventory 1 true 0 0 255 24 0, .swapItemsWithInventory 1 true 0 1 255 25 0]
    (by decide +kernel)
    (fun w => decide (w.bankMoney = 470) && w.members.rows.any fun m =>
      decide (m.rank ≠ guildMaster) && decide (w.movesOut m.guid 0 = 2))
    (by decide +kernel)
  simp only [Bool.and_eq_true, List.any_eq_true, decide_eq_true_eq] at hp
  obtain ⟨hbank, m, hm, hrank, hmoves⟩ := hp
  exact ⟨w, m, hm, hbank, hmoves, withinLimits_of_reaches sampleWorld_reset hw hm hrank⟩

/-- The member of the sample may take money for repairs only, and takes gold. -/
theorem not_withinLimits : ¬ ∀ (rules : Rules) (s w : World), s.Reset →
    Reaches (step rules) anyStep (Eq s) w → ∀ m ∈ w.members, m.rank ≠ guildMaster →
    w.WithinLimits s m := by
  intro h
  obtain ⟨w, hw, hp⟩ := Reaches.exists_of_replay (step sampleRules) anyStep (rfl : sampleWorld = sampleWorld)
    [.withdrawMoney 1 50 false] (replayOk_anyStep ..)
    (fun w => w.members.rows.any fun m => decide (m.rank ≠ guildMaster) && decide (w.goldTaken m.guid ≠ 0) &&
      decide (w.getRankRights m.rank &&& rightWithdrawGold = 0))
    (by decide +kernel)
  simp only [Bool.and_eq_true, List.any_eq_true, decide_eq_true_eq] at hp
  obtain ⟨m, hm, ⟨hrank, hgold⟩, hright⟩ := hp
  exact (h sampleRules sampleWorld w sampleWorld_reset hw m hm hrank).gold hgold hright

end World

end HysteriaCore.Guilds.Bank

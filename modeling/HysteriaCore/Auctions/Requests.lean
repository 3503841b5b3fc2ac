import HysteriaCore.Auctions.Balance

/-!
# Bids, cancellations and expiry balance

Each request keeps the books, and so does every run.
-/

namespace HysteriaCore.Auctions
open Lib Objects

namespace World

variable {w : World} {rates : Rates} {a : AuctionEntry} {guid price : ℕ}

/-! ### A bid -/

variable {player : Character}

theorem bid_keeps (h : w.Sound) (ha : a ∈ w.auctions)
    (hplayer : w.characters.find? guid = some player) (hguid : w.characters.mailable guid = true)
    (hprice : price ≤ player.money) (hmore : a.bid < price) (hbelow : a.buyout = 0 ∨ price < a.buyout) :
    w.Keeps rates (w.bid a guid price) := by
  have hmoney := h.money player ((w.characters.find?_eq_some_iff guid player).mp hplayer).1
  have hzero : guid ≠ 0 := ((w.characters.find?_eq_some_iff guid player).mp hplayer).2 ▸ hmoney.1
  have hmax : price ≤ maxMoneyAmount := hprice.trans hmoney.2
  have hrange := maxMoneyAmount_eq
  have hrefl : w.Mailing w [] := .refl h.money
  unfold World.bid
  by_cases hbidder : 0 < a.bidder
  · have hheld : a.held = a.bid := if_neg (by omega)
    rw [if_pos hbidder]
    by_cases hsame : a.bidder = guid
    · rw [if_pos hsame, subU32_of_le hmore.le (by omega)]
      obtain ⟨hmail, hpaid⟩ := hrefl.pay hplayer ((Nat.sub_le price a.bid).trans hprice)
      refine h.raise_keeps ha hmail (by simp) hmax hbelow hguid hzero ?_
      simp only [List.map_nil, List.sum_nil]
      omega
    · rw [if_neg hsame]
      unfold sendAuctionOutbiddedMail
      have hmail := hrefl.sendMail ⟨.outbidded, a.bidder, a.bid, []⟩ ((h.running a ha).bidder (by omega))
      have hplayer' := (congrArg (KeyedList.find? · guid) (sendMail_characters w ⟨.outbidded, a.bidder, a.bid, []⟩)).trans hplayer
      obtain ⟨hpay, hpaid⟩ := hmail.pay hplayer' hprice
      rw [sendMail_purses] at hpaid
      refine h.raise_keeps ha hpay (by simp) hmax hbelow hguid hzero ?_
      simp only [List.nil_append, List.map_cons, List.map_nil, List.sum_cons, List.sum_nil]
      omega
  · have hheld : a.held = 0 := if_pos (by omega)
    rw [if_neg hbidder]
    obtain ⟨hmail, hpaid⟩ := hrefl.pay hplayer hprice
    refine h.raise_keeps ha hmail (by simp) hmax hbelow hguid hzero ?_
    simp only [List.map_nil, List.sum_nil]
    omega

/-! ### A sale -/

theorem profit_add_cut (hcut : rates.getAuctionCut a ≤ a.bid) (hbid : a.bid ≤ maxMoneyAmount)
    (hdeposit : a.deposit ≤ maxMoneyAmount) :
    subU32 (u32 (a.bid + a.deposit)) (rates.getAuctionCut a) + rates.getAuctionCut a = a.bid + a.deposit := by
  have hrange := maxMoneyAmount_eq
  rw [u32_of_lt (by omega), subU32_of_le (by omega) (by omega)]
  omega

theorem sold_keeps (h : w.Sound) (ha : a ∈ w.auctions) {w₁ : World} {mails : List Mail}
    (hmail : w.Mailing w₁ mails) (hitems : ∀ m ∈ mails, m.items = []) {a' : AuctionEntry}
    (hident : a'.ident = a.ident) (hbidder : a'.bidder ≠ 0) (hto : w.characters.mailable a'.bidder = true)
    (hcut : rates.getAuctionCut a' ≤ a'.bid) (hbid : a'.bid ≤ maxMoneyAmount)
    (hpaid : w₁.purses + (mails.map Mail.money).sum + a'.bid = w.purses + a.held) :
    w.Keeps rates ((((w₁.sendAuctionSuccessfulMail rates a').sendAuctionWonMail a').removeAItem
      a'.item).removeAuction a' .sold) := by
  have hrun := h.running a ha
  have hitem : a'.item = a.item := congrArg (fun x => x.2.2.1) hident
  have howner : a'.owner = a.owner := congrArg (fun x => x.2.2.2.1) hident
  have hdeposit : a'.deposit = a.deposit := congrArg (fun x => x.2.2.2.2.2) hident
  have hprofit := profit_add_cut hcut hbid (hdeposit.le.trans hrun.deposit_le)
  unfold sendAuctionSuccessfulMail sendAuctionWonMail
  generalize subU32 (u32 (a'.bid + a'.deposit)) (rates.getAuctionCut a') = profit at hprofit ⊢
  rw [hitem]
  have hsuccess := hmail.sendMail ⟨.successful, a'.owner, profit, []⟩ (howner ▸ hrun.owner)
  have hwon := hsuccess.sendMail ⟨.won, a'.bidder, 0, [a.item]⟩ hto
  rw [hsuccess.sendAuctionItem_eq .won hrun.item hto]
  refine h.close_keeps ha hwon hident ?_ ?_ (fun _ => hbidder) (fun hno => by cases hno) ?_
  · intro m hm i hi
    simp only [List.mem_append, List.mem_singleton] at hm
    obtain (hm | rfl) | rfl := hm
    · rw [hitems m hm] at hi
      cases hi
    · cases hi
    · exact List.mem_singleton.mp hi
  · have hnone : mails.filter (fun m => decide (a.item ∈ m.items)) = [] :=
      List.filter_eq_nil_iff.mpr fun m hm => by simp [hitems m hm]
    simp [hnone, destination]
  · rw [sendMail_purses, sendMail_purses, sum_mail, sum_mail]
    have hcutTaken : cutTaken rates (a', .sold) = rates.getAuctionCut a' := rfl
    have hreturned : depositReturned (a', .sold) = a'.deposit := rfl
    omega

theorem sell_keeps (h : w.Sound) (hcut : ∀ a, rates.getAuctionCut a ≤ a.bid) (ha : a ∈ w.auctions)
    {w₁ : World} {mails : List Mail} (hmail : w.Mailing w₁ mails) (hitems : ∀ m ∈ mails, m.items = [])
    (hguid : w.characters.mailable guid = true) (hbuyer : guid ≠ 0)
    (hpaid : w₁.purses + (mails.map Mail.money).sum + a.buyout = w.purses + a.held) :
    w.Keeps rates (w₁.sell rates { a with bidder := guid, bid := a.buyout }) := by
  have hrun := h.running a ha
  have hpending := hmail.sendMail ⟨.salePending, a.owner, 0, []⟩ hrun.owner
  refine sold_keeps h ha hpending ?_ rfl hbuyer hguid (hcut _) hrun.buyout_le ?_
  · intro m hm
    rcases List.mem_append.mp hm with hm | hm
    · exact hitems m hm
    · rw [List.mem_singleton.mp hm]
  · rw [sendMail_purses, sum_mail]
    exact hpaid

theorem buyout_keeps (h : w.Sound) (hcut : ∀ a, rates.getAuctionCut a ≤ a.bid) (ha : a ∈ w.auctions)
    (hplayer : w.characters.find? guid = some player) (hguid : w.characters.mailable guid = true)
    (hbuyout : a.buyout ≤ player.money) (hzero : a.buyout ≠ 0) : w.Keeps rates (w.buyout rates a guid) := by
  have hmoney := h.money player ((w.characters.find?_eq_some_iff guid player).mp hplayer).1
  have hbuyer : guid ≠ 0 := ((w.characters.find?_eq_some_iff guid player).mp hplayer).2 ▸ hmoney.1
  have hrun := h.running a ha
  have hrange := maxMoneyAmount_eq
  have hmax := hrun.buyout_le
  have hrefl : w.Mailing w [] := .refl h.money
  unfold World.buyout
  by_cases hsame : guid = a.bidder
  · have hheld : a.held = a.bid := if_neg (by omega)
    have hless : a.bid < a.buyout := (hrun.below (by omega)).resolve_left hzero
    rw [if_pos hsame, subU32_of_le hless.le (by omega)]
    obtain ⟨hmail, hpaid⟩ := hrefl.pay hplayer ((Nat.sub_le a.buyout a.bid).trans hbuyout)
    refine sell_keeps h hcut ha hmail (by simp) hguid hbuyer ?_
    rw [List.map_nil, List.sum_nil]
    omega
  · rw [if_neg hsame]
    obtain ⟨hmail, hpaid⟩ := hrefl.pay hplayer hbuyout
    by_cases hbidder : a.bidder = 0
    · have hheld : a.held = 0 := if_pos hbidder
      rw [if_neg (not_not.mpr hbidder)]
      refine sell_keeps h hcut ha hmail (by simp) hguid hbuyer ?_
      rw [List.map_nil, List.sum_nil]
      omega
    · have hheld : a.held = a.bid := if_neg hbidder
      rw [if_pos hbidder]
      unfold sendAuctionOutbiddedMail
      have houtbid := hmail.sendMail ⟨.outbidded, a.bidder, a.bid, []⟩ (hrun.bidder hbidder)
      refine sell_keeps h hcut ha houtbid (by simp) hguid hbuyer ?_
      rw [sendMail_purses, sum_mail, List.map_nil, List.sum_nil]
      omega

theorem handleAuctionPlaceBid_keeps (h : w.Sound) (hcut : ∀ a, rates.getAuctionCut a ≤ a.bid) (guid : ℕ)
    (house : House) (id price : ℕ) : w.Keeps rates (w.handleAuctionPlaceBid rates guid house id price) := by
  unfold handleAuctionPlaceBid
  split
  · exact .refl h
  · split
    next player a hplayer ha =>
      obtain ⟨ha, -⟩ := (w.auctions.find?_eq_some_iff (house, id) a).mp ha
      split
      · exact .refl h
      next hown =>
        have hguid := Characters.mailable_of_online hplayer (by simpa using fun hoff => hown (.inl hoff))
        split
        · exact .refl h
        split
        · exact .refl h
        next hlow =>
          split
          · exact .refl h
          split
          · exact .refl h
          next hmoney =>
            have hprice : price ≤ player.money := by simpa [hasEnoughMoney] using hmoney
            split
            next hbelow => exact bid_keeps h ha hplayer hguid hprice (by omega) (by omega)
            next hbuyout => exact buyout_keeps h hcut ha hplayer hguid (by omega) (by omega)
    · exact .refl h

/-! ### Cancellation and expiry -/

theorem cancel_keeps (h : w.Sound) (ha : a ∈ w.auctions)
    (hplayer : w.characters.find? guid = some player) (hown : a.owner = guid)
    (hmoney : a.bidder ≠ 0 → rates.getAuctionCut a ≤ player.money) : w.Keeps rates (w.cancel rates a guid) := by
  have hrefl : w.Mailing w [] := .refl h.money
  have hreturned : depositReturned (a, .cancelled) = 0 := rfl
  unfold World.cancel
  by_cases hbidder : 0 < a.bidder
  · have hheld : a.held = a.bid := if_neg (by omega)
    have hcutTaken : cutTaken rates (a, .cancelled) = rates.getAuctionCut a := if_neg (by omega)
    rw [if_pos hbidder]
    unfold sendAuctionCancelledToBidderMail
    have hmail := hrefl.sendMail ⟨.cancelledToBidder, a.bidder, a.bid, []⟩ ((h.running a ha).bidder (by omega))
    rw [← sendMail_characters w ⟨.cancelledToBidder, a.bidder, a.bid, []⟩] at hplayer
    obtain ⟨hpay, hpaid⟩ := hmail.pay hplayer (hmoney (by omega))
    rw [sendMail_purses] at hpaid
    refine h.close_keeps ha (hpay.sendMailTo ⟨.canceled, guid, 0, [a.item]⟩) rfl (by simp) ?_
      (fun hno => by cases hno) (fun hno => by cases hno) ?_
    · simp [destination, hown]
    · rw [sum_mail, sum_mail, List.map_nil, List.sum_nil, sendMailTo_purses]
      omega
  · have hheld : a.held = 0 := if_pos (by omega)
    have hcutTaken : cutTaken rates (a, .cancelled) = 0 := if_pos (by omega)
    rw [if_neg hbidder]
    refine h.close_keeps ha (hrefl.sendMailTo ⟨.canceled, guid, 0, [a.item]⟩) rfl (by simp) ?_
      (fun hno => by cases hno) (fun hno => by cases hno) ?_
    · simp [destination, hown]
    · rw [sum_mail, List.map_nil, List.sum_nil, sendMailTo_purses]
      omega

theorem handleAuctionRemoveItem_keeps (h : w.Sound) (guid : ℕ) (house : House) (id : ℕ) :
    w.Keeps rates (w.handleAuctionRemoveItem rates guid house id) := by
  unfold handleAuctionRemoveItem
  split
  next player a hplayer ha =>
    obtain ⟨ha, -⟩ := (w.auctions.find?_eq_some_iff (house, id) a).mp ha
    split
    · exact .refl h
    next hown =>
      split
      · exact .refl h
      next hmoney =>
        refine cancel_keeps h ha hplayer (by simpa using fun hne => hown (.inr (.inl hne))) fun hbidder => ?_
        simpa [hasEnoughMoney] using fun hno => hmoney ⟨Nat.pos_of_ne_zero hbidder, hno⟩
  · exact .refl h

theorem settle_keeps (h : w.Sound) (hcut : ∀ a, rates.getAuctionCut a ≤ a.bid) (ha : a ∈ w.auctions) :
    w.Keeps rates (w.settle rates a) := by
  have hrun := h.running a ha
  have hrefl : w.Mailing w [] := .refl h.money
  unfold World.settle
  by_cases hbidder : a.bidder = 0
  · have hheld : a.held = 0 := if_pos hbidder
    have hcutTaken : cutTaken rates (a, .expired) = 0 := rfl
    have hreturned : depositReturned (a, .expired) = 0 := rfl
    have hmail := hrefl.sendMail ⟨.expired, a.owner, 0, [a.item]⟩ hrun.owner
    rw [if_pos hbidder]
    unfold sendAuctionExpiredMail
    rw [hrefl.sendAuctionItem_eq .expired hrun.item hrun.owner]
    refine h.close_keeps ha hmail rfl (by simp) ?_ (fun hno => by cases hno) (fun _ => hbidder) ?_
    · simp [destination]
    · rw [sum_mail, List.map_nil, List.sum_nil, sendMail_purses]
      omega
  · have hheld : a.held = a.bid := if_neg hbidder
    rw [if_neg hbidder]
    refine sold_keeps h ha hrefl (by simp) rfl hbidder (hrun.bidder hbidder) (hcut a) hrun.bid_le ?_
    rw [List.map_nil, List.sum_nil]
    omega

theorem sendMail_auctions (w : World) (mail : Mail) : (w.sendMail mail).auctions = w.auctions := by
  unfold World.sendMail
  split <;> rfl

theorem sendAuctionItem_auctions (w : World) (answer : MailAuctionAnswers) (receiver item : ℕ) :
    (w.sendAuctionItem answer receiver item).auctions = w.auctions := by
  unfold sendAuctionItem
  split
  · split
    · exact sendMail_auctions w _
    · rfl
  · rfl

theorem settle_auctions (w : World) (a : AuctionEntry) :
    (w.settle rates a).auctions = w.auctions.erase a.key := by
  unfold World.settle
  split
  · exact congrArg (KeyedList.erase · a.key) (sendAuctionItem_auctions w _ _ _)
  · exact congrArg (KeyedList.erase · a.key)
      ((sendAuctionItem_auctions _ _ _ _).trans (sendMail_auctions w _))

theorem settleAll_keeps (hcut : ∀ a, rates.getAuctionCut a ≤ a.bid) (as : List AuctionEntry)
    (hkeys : (as.map AuctionEntry.key).Nodup) (h : w.Sound) (hin : ∀ a ∈ as, a ∈ w.auctions) :
    w.Keeps rates (as.foldl (fun w a => w.settle rates a) w) := by
  induction as generalizing w with
  | nil => exact .refl h
  | cons a as ih =>
    obtain ⟨hfresh, hkeys⟩ := List.nodup_cons.mp hkeys
    have hfirst : w.Keeps rates (w.settle rates a) := settle_keeps h hcut (hin a List.mem_cons_self)
    refine hfirst.trans (ih hkeys hfirst.sound fun b hb => ?_)
    rw [settle_auctions]
    refine (w.auctions.mem_erase a.key b).mpr ⟨hin b (List.mem_cons_of_mem _ hb), fun heq => hfresh ?_⟩
    exact heq ▸ List.mem_map_of_mem hb

theorem update_keeps (h : w.Sound) (hcut : ∀ a, rates.getAuctionCut a ≤ a.bid) (house : House) (checkTime : ℕ) :
    w.Keeps rates (w.update rates house checkTime) :=
  settleAll_keeps hcut _ (w.auctions.distinct.sublist (List.filter_sublist.map _)) h
    fun _ ha => (List.mem_filter.mp ha).1

/-! ### Every run -/

theorem next_keeps (hcut : ∀ a, rates.getAuctionCut a ≤ a.bid) (h : w.Sound) (e : Event) :
    w.Keeps rates (w.next rates e) := by
  cases e with
  | placeBid guid house id price => exact handleAuctionPlaceBid_keeps h hcut guid house id price
  | removeItem guid house id => exact handleAuctionRemoveItem_keeps h guid house id
  | update house checkTime => exact update_keeps h hcut house checkTime

theorem keeps_of_reaches (hcut : ∀ a, rates.getAuctionCut a ≤ a.bid) {s : World} (hs : s.Sound)
    (h : Reaches (step rates) anyStep (Eq s) w) : s.Keeps rates w := by
  refine h.invariant (fun w hw => hw ▸ .refl hs) fun w e w' hw _ hstep => ?_
  obtain rfl := Option.some.inj hstep
  exact hw.trans (next_keeps hcut hw.sound e)

/-- From sound auctions on, the cut never above the bid: purses, mails and bids change by the
deposits returned and the cuts taken only; an auction is running or has ended, once; the item of
a running one is in `mAitems` and no mail, that of an ended one in one mail to the right receiver. -/
theorem balanced_of_reaches (hcut : ∀ a, rates.getAuctionCut a ≤ a.bid) {s : World} (hs : s.Sound)
    (hnew : s.closed = []) (h : Reaches (step rates) anyStep (Eq s) w) :
    w.total + w.cuts rates = s.total + w.deposits ∧ (∀ c ∈ w.characters, c.money ≤ maxMoneyAmount) ∧
      w.roster.Perm (s.auctions.rows.map AuctionEntry.ident) ∧
      (∀ a ∈ w.auctions, a.item ∈ w.aitems ∧ w.receivers a.item = []) ∧
      ∀ c ∈ w.closed, c.1.item ∉ w.aitems ∧ w.receivers c.1.item = [destination c] ∧
        (c.2 = .sold → c.1.bidder ≠ 0) ∧ (c.2 = .expired → c.1.bidder = 0) := by
  have hkeeps := keeps_of_reaches hcut hs h
  refine ⟨?_, fun c hc => (hkeeps.sound.money c hc).2, ?_, fun a ha => ?_, fun c hc => ?_⟩
  · have hcuts : s.cuts rates = 0 := by rw [cuts, hnew, List.map_nil, List.sum_nil]
    have hdeposits : s.deposits = 0 := by rw [deposits, hnew, List.map_nil, List.sum_nil]
    have hbalance := hkeeps.balance
    omega
  · have hroster := hkeeps.roster
    unfold roster at hroster ⊢
    rwa [hnew, List.map_nil, List.append_nil] at hroster
  · have hitem := (hkeeps.sound.running a ha).item
    have hnone : w.mails.filter (fun m => decide (a.item ∈ m.items)) = [] :=
      List.filter_eq_nil_iff.mpr fun m hm => by simpa using hkeeps.sound.unmailed a.item hitem m hm
    exact ⟨hitem, congrArg (List.map Mail.receiver) hnone⟩
  · have hended := hkeeps.sound.ended c hc
    exact ⟨hended.item, hended.mail, hended.sold, hended.expired⟩

/-! ### A run with every way to end -/

def sampleAuctions : List AuctionEntry :=
  [⟨.horde, 1, 100, 1, 50, 0, 500, 90, 0, 20⟩, ⟨.horde, 2, 101, 1, 50, 0, 0, 90, 0, 20⟩,
    ⟨.horde, 3, 102, 2, 50, 0, 0, 90, 0, 20⟩, ⟨.neutral, 4, 103, 2, 50, 0, 0, 70, 0, 20⟩]

def sample : World where
  characters := ⟨[⟨1, 11, true, 1000⟩, ⟨2, 12, true, 1000⟩, ⟨3, 13, true, 1000⟩], by decide⟩
  auctions := ⟨sampleAuctions, by decide⟩
  aitems := {100, 101, 102, 103}
  mails := []
  closed := []

def sampleRates : Rates := ⟨fun a => a.bid / 20, fun a => a.bid / 20⟩

def sampleRun : List Event :=
  [.placeBid 2 .horde 1 100, .placeBid 3 .horde 1 200, .placeBid 3 .horde 1 300, .placeBid 2 .horde 1 600,
    .placeBid 3 .horde 2 100, .removeItem 1 .horde 2, .placeBid 1 .horde 3 60, .update .neutral 80, .update .horde 90]

theorem sample_sound : sample.Sound := by
  have hrunning : ∀ a ∈ sampleAuctions, a.bid ≤ maxMoneyAmount ∧ a.buyout ≤ maxMoneyAmount ∧
      a.deposit ≤ maxMoneyAmount ∧ a.bidder = 0 ∧ sample.characters.mailable a.owner = true ∧ a.item ∈ sample.aitems := by
    decide
  refine ⟨fun a ha => ?_, fun c hc => ?_, by decide, fun i _ m hm => ?_, ?_⟩
  · obtain ⟨hbid, hbuyout, hdeposit, hbidder, howner, hitem⟩ := hrunning a ha
    exact ⟨hbid, hbuyout, hdeposit, fun h => absurd hbidder h, howner, fun h => absurd hbidder h, hitem⟩
  · cases hc
  · cases hm
  · exact (by decide : ∀ c ∈ sample.characters.rows, c.guid ≠ 0 ∧ c.money ≤ maxMoneyAmount)

theorem balanced_of_reaches_sample : ∃ w, Reaches (step sampleRates) anyStep (Eq sample) w ∧
    w.closed.map Prod.snd = [.sold, .cancelled, .expired, .sold] ∧
    w.total + w.cuts sampleRates = sample.total + w.deposits := by
  obtain ⟨w, hw, htest⟩ := Reaches.exists_of_replay (step sampleRates) anyStep (rfl : sample = sample) sampleRun
    (replayOk_anyStep ..) (fun w => decide (w.closed.map Prod.snd = [.sold, .cancelled, .expired, .sold]))
    (by decide +kernel)
  exact ⟨w, hw, of_decide_eq_true htest,
    (balanced_of_reaches (fun a => Nat.div_le_self a.bid 20) sample_sound rfl hw).1⟩

end World

end HysteriaCore.Auctions

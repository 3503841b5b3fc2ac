import HysteriaCore.Auctions.House
import Mathlib.Algebra.BigOperators.Group.List.Basic

/-!
# Auctions conserve money and items

What the bidders have paid is in the bid of a running auction, in a mail, or has
been taken as the cut; every item is in a running auction or in one mail.
-/

namespace HysteriaCore.Auctions
open Lib Objects

def AuctionEntry.held (a : AuctionEntry) : ℕ := if a.bidder = 0 then 0 else a.bid

def cutTaken (rates : Rates) : AuctionEntry × Outcome → ℕ
  | (a, .sold) => rates.getAuctionCut a
  | (a, .cancelled) => if a.bidder = 0 then 0 else rates.getAuctionCut a
  | (_, .expired) => 0

def depositReturned : AuctionEntry × Outcome → ℕ
  | (a, .sold) => a.deposit
  | (_, .cancelled) | (_, .expired) => 0

def destination : AuctionEntry × Outcome → ℕ
  | (a, .sold) => a.bidder
  | (a, .cancelled) | (a, .expired) => a.owner

def AuctionEntry.ident (a : AuctionEntry) : House × ℕ × ℕ × ℕ × ℕ × ℕ :=
  (a.house, a.id, a.item, a.owner, a.buyout, a.deposit)

namespace World
variable (w : World)

def purses : ℕ := w.characters.purses

def mailed : ℕ := (w.mails.map Mail.money).sum

def bids : ℕ := (w.auctions.rows.map AuctionEntry.held).sum

def total : ℕ := w.purses + w.mailed + w.bids

def cuts (rates : Rates) : ℕ := (w.closed.map (cutTaken rates)).sum

def deposits : ℕ := (w.closed.map depositReturned).sum

def receivers (item : ℕ) : List ℕ := (w.mails.filter fun m => decide (item ∈ m.items)).map Mail.receiver

def roster : List (House × ℕ × ℕ × ℕ × ℕ × ℕ) :=
  w.auctions.rows.map AuctionEntry.ident ++ w.closed.map fun c => c.1.ident

structure Running (a : AuctionEntry) : Prop where
  bid_le : a.bid ≤ maxMoneyAmount
  buyout_le : a.buyout ≤ maxMoneyAmount
  deposit_le : a.deposit ≤ maxMoneyAmount
  below : a.bidder ≠ 0 → a.buyout = 0 ∨ a.bid < a.buyout
  owner : w.characters.mailable a.owner = true
  bidder : a.bidder ≠ 0 → w.characters.mailable a.bidder = true
  item : a.item ∈ w.aitems

/-- What holds of an auction that has ended: its item is in one mail, to the winner or back to the owner. -/
structure Ended (c : AuctionEntry × Outcome) : Prop where
  item : c.1.item ∉ w.aitems
  mail : w.receivers c.1.item = [destination c]
  sold : c.2 = .sold → c.1.bidder ≠ 0
  expired : c.2 = .expired → c.1.bidder = 0

structure Sound : Prop where
  running : ∀ a ∈ w.auctions, w.Running a
  ended : ∀ c ∈ w.closed, w.Ended c
  items : (w.auctions.rows.map AuctionEntry.item).Nodup
  unmailed : ∀ i ∈ w.aitems, ∀ m ∈ w.mails, i ∉ m.items
  money : w.characters.Capped

variable {w} {w₁ : World} {rates : Rates} {a : AuctionEntry} {guid : ℕ}

/-! ### Mails -/

/-- What a step may do before it touches the auctions: pay and send mails. -/
structure Mailing (w w₁ : World) (mails : List Mail) : Prop where
  auctions : w₁.auctions = w.auctions
  aitems : w₁.aitems = w.aitems
  closed : w₁.closed = w.closed
  mailable : ∀ g, w₁.characters.mailable g = w.characters.mailable g
  money : w₁.characters.Capped
  mails : w₁.mails = w.mails ++ mails

theorem Mailing.refl (h : w.characters.Capped) : w.Mailing w [] :=
  ⟨rfl, rfl, rfl, fun _ => rfl, h, (List.append_nil _).symm⟩

variable {mails : List Mail}

theorem Mailing.sendMailTo (h : w.Mailing w₁ mails) (mail : Mail) :
    w.Mailing (w₁.sendMailTo mail) (mails ++ [mail]) := by
  refine ⟨h.auctions, h.aitems, h.closed, h.mailable, h.money, ?_⟩
  show w₁.mails ++ [mail] = _
  rw [h.mails, List.append_assoc]

theorem sendMail_characters (w : World) (mail : Mail) : (w.sendMail mail).characters = w.characters := by
  unfold World.sendMail
  split <;> rfl

theorem sendMailTo_purses (w : World) (mail : Mail) : (w.sendMailTo mail).purses = w.purses := rfl

theorem sendMail_purses (w : World) (mail : Mail) : (w.sendMail mail).purses = w.purses :=
  congrArg Characters.purses (sendMail_characters w mail)

theorem Mailing.sendMail (h : w.Mailing w₁ mails) (mail : Mail) (hreceiver : w.characters.mailable mail.receiver = true) :
    w.Mailing (w₁.sendMail mail) (mails ++ [mail]) := by
  have hsent : w₁.sendMail mail = w₁.sendMailTo mail := if_pos ((h.mailable mail.receiver).trans hreceiver)
  rw [hsent]
  exact h.sendMailTo mail

theorem Mailing.sendAuctionItem_eq (h : w.Mailing w₁ mails) (answer : MailAuctionAnswers) {receiver item : ℕ}
    (hitem : item ∈ w.aitems) (hreceiver : w.characters.mailable receiver = true) :
    w₁.sendAuctionItem answer receiver item = w₁.sendMail ⟨answer, receiver, 0, [item]⟩ := by
  unfold World.sendAuctionItem
  rw [if_pos (h.aitems ▸ hitem), if_pos ((h.mailable receiver).trans hreceiver)]

theorem Mailing.pay (h : w.Mailing w₁ mails) {player : Character}
    (hplayer : w₁.characters.find? guid = some player) {amount : ℕ} (hle : amount ≤ player.money) :
    w.Mailing (w₁.pay guid amount) mails ∧ (w₁.pay guid amount).purses + amount = w₁.purses := by
  exact ⟨⟨h.auctions, h.aitems, h.closed,
    fun g => (Characters.modifyMoney_mailable w₁.characters guid _ g).trans (h.mailable g),
    Characters.pay_capped h.money hplayer hle, h.mails⟩, Characters.pay_purses h.money hplayer hle⟩

theorem Mailing.mailed (h : w.Mailing w₁ mails) : w₁.mailed = w.mailed + (mails.map Mail.money).sum := by
  unfold World.mailed
  rw [h.mails, List.map_append, List.sum_append]

theorem sum_mail (mails : List Mail) (answer : MailAuctionAnswers) (receiver money : ℕ) (items : List ℕ) :
    ((mails ++ [(⟨answer, receiver, money, items⟩ : Mail)]).map Mail.money).sum = (mails.map Mail.money).sum + money := by
  rw [List.map_append, List.sum_append, List.map_singleton, List.sum_singleton]

/-- What a step may do to the state: no money comes or goes but cuts and deposits,
and an auction leaves the running ones only for those that have ended. -/
structure Keeps (rates : Rates) (w w' : World) : Prop where
  sound : w'.Sound
  balance : w'.total + w'.cuts rates + w.deposits = w.total + w.cuts rates + w'.deposits
  roster : w'.roster.Perm w.roster

theorem Keeps.refl (h : w.Sound) : w.Keeps rates w := ⟨h, rfl, .refl _⟩

theorem Keeps.trans {w₂ : World} (h₁ : w.Keeps rates w₁) (h₂ : w₁.Keeps rates w₂) : w.Keeps rates w₂ := by
  refine ⟨h₂.sound, ?_, h₂.roster.trans h₁.roster⟩
  have hfirst := h₁.balance
  have hsecond := h₂.balance
  omega

/-! ### A bid -/

theorem receivers_append (h : w.Mailing w₁ mails) {i : ℕ} (hi : ∀ m ∈ mails, i ∉ m.items) :
    w₁.receivers i = w.receivers i := by
  unfold receivers
  rw [h.mails, List.filter_append, List.map_append]
  have hnone : mails.filter (fun m => decide (i ∈ m.items)) = [] :=
    List.filter_eq_nil_iff.mpr fun m hm => by simpa using hi m hm
  rw [hnone, List.map_nil, List.append_nil]

variable {price : ℕ}

theorem mem_raise {b : AuctionEntry} : b ∈ (w.raise a guid price).auctions ↔
    ∃ x ∈ w.auctions, (if x.key = a.key then { x with bidder := guid, bid := price } else x) = b :=
  w.auctions.mem_adjust a.key (fun x => { x with bidder := guid, bid := price }) (fun _ => rfl) b

theorem raise_map {β : Type} (f : AuctionEntry → β) (hf : ∀ x : AuctionEntry, ∀ g p, f { x with bidder := g, bid := p } = f x)
    (w : World) (a : AuctionEntry) (guid price : ℕ) :
    (w.raise a guid price).auctions.rows.map f = w.auctions.rows.map f := by
  show (w.auctions.rows.map fun x => if x.key = a.key then { x with bidder := guid, bid := price } else x).map f = _
  rw [List.map_map]
  refine List.map_congr_left fun x _ => ?_
  show f (if x.key = a.key then _ else x) = f x
  split
  · exact hf x guid price
  · rfl

theorem Sound.raise (h : w.Sound) (ha : a ∈ w.auctions) (hmail : w.Mailing w₁ mails)
    (hitems : ∀ m ∈ mails, m.items = []) (hprice : price ≤ maxMoneyAmount)
    (hbelow : a.buyout = 0 ∨ price < a.buyout) (hguid : w.characters.mailable guid = true) :
    (w₁.raise a guid price).Sound := by
  have hnone : ∀ i, ∀ m ∈ mails, i ∉ m.items := fun i m hm => by simp [hitems m hm]
  refine ⟨fun b hb => ?_, fun c hc => ?_, ?_, fun i hi m hm => ?_, hmail.money⟩
  · obtain ⟨x, hx, rfl⟩ := mem_raise.mp hb
    rw [hmail.auctions] at hx
    have hrun := h.running x hx
    by_cases hkey : x.key = a.key
    · have heq : x = a := w.auctions.eq_of_key_eq hx ha hkey
      subst heq
      rw [if_pos rfl]
      exact ⟨hprice, hrun.buyout_le, hrun.deposit_le, fun _ => hbelow, (hmail.mailable _).trans hrun.owner,
        fun _ => (hmail.mailable guid).trans hguid, hmail.aitems ▸ hrun.item⟩
    · rw [if_neg hkey]
      exact ⟨hrun.bid_le, hrun.buyout_le, hrun.deposit_le, hrun.below, (hmail.mailable _).trans hrun.owner,
        fun hb => (hmail.mailable _).trans (hrun.bidder hb), hmail.aitems ▸ hrun.item⟩
  · have hended := h.ended c (hmail.closed ▸ hc)
    refine ⟨hmail.aitems ▸ hended.item, ?_, hended.sold, hended.expired⟩
    exact (receivers_append hmail (hnone _)).trans hended.mail
  · rw [raise_map AuctionEntry.item (fun _ _ _ => rfl), hmail.auctions]
    exact h.items
  · rw [show (w₁.raise a guid price).mails = w₁.mails from rfl, hmail.mails] at hm
    rcases List.mem_append.mp hm with hm | hm
    · exact h.unmailed i (hmail.aitems ▸ hi) m hm
    · exact hnone i m hm

theorem raise_bids (ha : a ∈ w.auctions) (hguid : guid ≠ 0) (price : ℕ) :
    (w.raise a guid price).bids + a.held = w.bids + price := by
  have hsum := w.auctions.sum_adjust AuctionEntry.held ha (fun a => { a with bidder := guid, bid := price })
    fun _ => rfl
  have hheld : ({ a with bidder := guid, bid := price } : AuctionEntry).held = price := if_neg hguid
  rw [hheld] at hsum
  exact hsum

theorem Sound.raise_keeps (h : w.Sound) (ha : a ∈ w.auctions) (hmail : w.Mailing w₁ mails)
    (hitems : ∀ m ∈ mails, m.items = []) (hprice : price ≤ maxMoneyAmount)
    (hbelow : a.buyout = 0 ∨ price < a.buyout) (hguid : w.characters.mailable guid = true) (hzero : guid ≠ 0)
    (hpaid : w₁.purses + (mails.map Mail.money).sum + price = w.purses + a.held) :
    w.Keeps rates (w₁.raise a guid price) := by
  refine ⟨h.raise ha hmail hitems hprice hbelow hguid, ?_, ?_⟩
  · have hbids := raise_bids (w := w₁) (hmail.auctions.symm ▸ ha) hzero price
    have hsame : w₁.bids = w.bids := by unfold bids; rw [hmail.auctions]
    have htotal : (w₁.raise a guid price).total = w₁.purses + w₁.mailed + (w₁.raise a guid price).bids := rfl
    have hbefore : w.total = w.purses + w.mailed + w.bids := rfl
    have hcuts : (w₁.raise a guid price).cuts rates = w.cuts rates := by
      show (w₁.closed.map _).sum = _
      rw [hmail.closed]
      rfl
    have hdeposits : (w₁.raise a guid price).deposits = w.deposits := by
      show (w₁.closed.map _).sum = _
      rw [hmail.closed]
      rfl
    have hmailed := hmail.mailed
    omega
  · unfold roster
    rw [raise_map AuctionEntry.ident (fun _ _ _ => rfl), hmail.auctions,
      show (w₁.raise a guid price).closed = w.closed from hmail.closed]

/-! ### The end of an auction -/

theorem Sound.item_inj (h : w.Sound) {b c : AuctionEntry} (hb : b ∈ w.auctions) (hc : c ∈ w.auctions)
    (hitem : b.item = c.item) : b = c := List.inj_on_of_nodup_map h.items hb hc hitem

theorem Sound.close (h : w.Sound) (ha : a ∈ w.auctions) (hmail : w.Mailing w₁ mails) {a' : AuctionEntry}
    (hident : a'.ident = a.ident) {outcome : Outcome} (hitems : ∀ m ∈ mails, ∀ i ∈ m.items, i = a.item)
    (hto : (mails.filter fun m => decide (a.item ∈ m.items)).map Mail.receiver = [destination (a', outcome)])
    (hsold : outcome = .sold → a'.bidder ≠ 0) (hexpired : outcome = .expired → a'.bidder = 0) :
    ((w₁.removeAItem a.item).removeAuction a' outcome).Sound := by
  have hkey : a'.key = a.key := congrArg (fun x => (x.1, x.2.1)) hident
  have hitem : a'.item = a.item := congrArg (fun x => x.2.2.1) hident
  refine ⟨fun b hb => ?_, fun c hc => ?_, ?_, fun i hi m hm => ?_, hmail.money⟩
  · obtain ⟨hb, hother⟩ := (w₁.auctions.mem_erase a'.key b).mp hb
    rw [hmail.auctions] at hb
    have hrun := h.running b hb
    have hne : b.item ≠ a.item := fun heq => hother (by rw [h.item_inj hb ha heq, hkey])
    exact ⟨hrun.bid_le, hrun.buyout_le, hrun.deposit_le, hrun.below, (hmail.mailable _).trans hrun.owner,
      fun hz => (hmail.mailable _).trans (hrun.bidder hz),
      Finset.mem_erase.mpr ⟨hne, hmail.aitems ▸ hrun.item⟩⟩
  · rcases List.mem_append.mp hc with hc | hc
    · have hended := h.ended c (hmail.closed ▸ hc)
      have hne : c.1.item ≠ a.item := fun heq => hended.item (heq ▸ (h.running a ha).item)
      refine ⟨fun hin => hended.item (hmail.aitems ▸ Finset.mem_of_mem_erase hin), ?_, hended.sold, hended.expired⟩
      exact (receivers_append hmail fun m hm hin => hne (hitems m hm _ hin)).trans hended.mail
    · obtain rfl := List.mem_singleton.mp hc
      refine ⟨?_, ?_, hsold, hexpired⟩
      · rw [hitem]
        exact Finset.notMem_erase _ _
      · show (w₁.mails.filter _).map _ = _
        have hnone : w.mails.filter (fun m => decide (a.item ∈ m.items)) = [] :=
          List.filter_eq_nil_iff.mpr fun m hm => by simpa using h.unmailed a.item (h.running a ha).item m hm
        rw [hitem, hmail.mails, List.filter_append, hnone, List.nil_append]
        exact hto
  · show ((w₁.auctions.erase a'.key).rows.map AuctionEntry.item).Nodup
    rw [hmail.auctions]
    exact h.items.sublist (List.filter_sublist.map _)
  · obtain ⟨hne, hin⟩ := Finset.mem_erase.mp hi
    rw [show ((w₁.removeAItem a.item).removeAuction a' outcome).mails = w₁.mails from rfl, hmail.mails] at hm
    rcases List.mem_append.mp hm with hm | hm
    · exact h.unmailed i (hmail.aitems ▸ hin) m hm
    · exact fun hmem => hne (hitems m hm i hmem)

theorem Sound.close_keeps (h : w.Sound) (ha : a ∈ w.auctions) (hmail : w.Mailing w₁ mails) {a' : AuctionEntry}
    (hident : a'.ident = a.ident) {outcome : Outcome} (hitems : ∀ m ∈ mails, ∀ i ∈ m.items, i = a.item)
    (hto : (mails.filter fun m => decide (a.item ∈ m.items)).map Mail.receiver = [destination (a', outcome)])
    (hsold : outcome = .sold → a'.bidder ≠ 0) (hexpired : outcome = .expired → a'.bidder = 0)
    (hpaid : w₁.purses + (mails.map Mail.money).sum + cutTaken rates (a', outcome) =
      w.purses + a.held + depositReturned (a', outcome)) :
    w.Keeps rates ((w₁.removeAItem a.item).removeAuction a' outcome) := by
  have hkey : a'.key = a.key := congrArg (fun x => (x.1, x.2.1)) hident
  have hafter : ((w₁.removeAItem a.item).removeAuction a' outcome).auctions = w.auctions.erase a.key := by
    show w₁.auctions.erase a'.key = _
    rw [hmail.auctions, hkey]
  have hclosed : ((w₁.removeAItem a.item).removeAuction a' outcome).closed = w.closed ++ [(a', outcome)] := by
    show w₁.closed ++ [(a', outcome)] = _
    rw [hmail.closed]
  generalize hw' : (w₁.removeAItem a.item).removeAuction a' outcome = w' at hafter hclosed
  have hsound : w'.Sound := hw' ▸ h.close ha hmail hident hitems hto hsold hexpired
  have hpurses : w'.purses = w₁.purses := hw' ▸ rfl
  have hmailed : w'.mailed = w₁.mailed := hw' ▸ rfl
  refine ⟨hsound, ?_, ?_⟩
  · have hbids : w'.bids + a.held = w.bids := by
      unfold bids
      rw [hafter]
      exact w.auctions.sum_erase AuctionEntry.held ha
    have hcuts : w'.cuts rates = w.cuts rates + cutTaken rates (a', outcome) := by
      unfold cuts
      simp [hclosed]
    have hdeposits : w'.deposits = w.deposits + depositReturned (a', outcome) := by
      unfold deposits
      simp [hclosed]
    have hsent := hmail.mailed
    unfold total
    omega
  · unfold roster
    rw [hafter, hclosed, List.map_append, ← List.append_assoc]
    refine (List.perm_append_singleton a'.ident _).trans ?_
    rw [hident]
    exact ((w.auctions.perm_erase ha).map AuctionEntry.ident).symm.append_right _

end World

end HysteriaCore.Auctions

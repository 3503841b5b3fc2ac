import HysteriaCore.Mails.Mailbox

/-!
# The books of the mail system

Where money and items are, in the middle of a request also in no place yet, and
what each operation moves.
-/

namespace HysteriaCore.Mails
open Lib Objects

def units (items : List Item) (entry : ℕ) : ℕ := (items.map fun x => if x.entry = entry then x.count else 0).sum

/-! ### What has happened to a mail -/

def payment (id COD : ℕ) : List Record := if COD = 0 then [] else [.paid id COD]

def Settled (id : ℕ) (records : List Record) : Prop :=
  ∃ COD out, records = .sent id COD :: (payment id COD ++ out) ∧ ∀ r ∈ out, ∃ item, r = .handedOut id item

def Regular (id : ℕ) (records : List Record) : Prop :=
  records = [] ∨ (∃ COD, records = [.sent id COD]) ∨ Settled id records

theorem Settled.handOut {id : ℕ} {records : List Record} (h : Settled id records) (item : ℕ) :
    Settled id (records ++ [.handedOut id item]) := by
  obtain ⟨COD, out, rfl, hout⟩ := h
  refine ⟨COD, out ++ [.handedOut id item], by simp, fun r hr => ?_⟩
  rcases List.mem_append.mp hr with hr | hr
  · exact hout r hr
  · exact ⟨item, List.mem_singleton.mp hr⟩

theorem settled_sent (id : ℕ) : Settled id [.sent id 0] := ⟨0, [], rfl, fun r hr => by cases hr⟩

theorem settled_paid {id COD : ℕ} (h : COD ≠ 0) : Settled id [.sent id COD, .paid id COD] := by
  refine ⟨COD, [], ?_, fun r hr => by cases hr⟩
  rw [payment, if_neg h]
  rfl

namespace World
variable (w : World)

def recordsOf (id : ℕ) : List Record := w.records.filter fun r => decide (r.mail = id)

def placed : List ℕ := w.inventory.rows.map Holding.guid ++ mailItems w.mails.rows

def gone : List ℕ := mailItems w.purged ++ w.merged

def total : ℕ := w.characters.purses + (w.mails.rows.map Mail.money).sum + (w.purged.map Mail.money).sum

structure Fine (m : Mail) : Prop where
  messageID : m.messageID < w.nextMailID
  normal : m.messageType = .normal
  sender : m.sender ≠ 0 ∧ w.characters.mailable m.sender = true
  receiver : m.receiver ≠ 0 ∧ w.characters.mailable m.receiver = true
  money : m.money ≤ maxMoneyAmount
  items : ∀ g ∈ m.items, (m.receiver, g) ∈ w.mItems
  due : m.COD ≠ 0 → w.recordsOf m.messageID = [.sent m.messageID m.COD]
  settled : m.COD = 0 → Settled m.messageID (w.recordsOf m.messageID)

structure Sound (loose : List ℕ) : Prop where
  capped : w.characters.Capped
  known : ∀ g, w.characters.find? g ≠ none → w.characters.mailable g = true
  mails : ∀ m ∈ w.mails, w.Fine m
  heap : (w.placed ++ loose).Perm (w.items.rows.map Item.guid)
  unused : ∀ id, w.nextMailID ≤ id → w.recordsOf id = []
  records : ∀ id, Regular id (w.recordsOf id)

structure Books (s w : World) (money : ℕ) (loose : List ℕ) : Prop extends w.Sound loose where
  total : w.total + w.postage + money = s.total + s.postage
  items : (w.placed ++ loose ++ w.gone).Perm (s.placed ++ s.gone)
  units : ∀ e, units w.items.rows e + units w.destroyed e = units s.items.rows e + units s.destroyed e

variable {w} {w' s : World} {money : ℕ} {loose : List ℕ} {guid : ℕ}

theorem Sound.books (h : w.Sound []) : Books w w 0 [] := by
  refine ⟨h, rfl, ?_, fun _ => rfl⟩
  rw [List.append_nil]

theorem Sound.nodup (h : w.Sound loose) : (w.placed ++ loose).Nodup := h.heap.nodup_iff.mpr w.items.distinct

variable {m : Mail}

theorem Fine.congr (h : w.Fine m) (hnext : w.nextMailID ≤ w'.nextMailID)
    (hmailable : ∀ g, w'.characters.mailable g = w.characters.mailable g)
    (hitems : ∀ g ∈ m.items, (m.receiver, g) ∈ w'.mItems)
    (hrecords : w'.recordsOf m.messageID = w.recordsOf m.messageID) : w'.Fine m :=
  ⟨h.messageID.trans_le hnext, h.normal, (hmailable m.sender).symm ▸ h.sender,
    (hmailable m.receiver).symm ▸ h.receiver, h.money, hitems, hrecords.symm ▸ h.due, hrecords.symm ▸ h.settled⟩

/-! ### Money -/

theorem Sound.purse (h : w.Sound loose) {amount : ℤ} (hcapped : (w.characters.modifyMoney guid amount).Capped) :
    { w with characters := w.characters.modifyMoney guid amount }.Sound loose := by
  have hsame := Characters.modifyMoney_mailable w.characters guid amount
  refine ⟨hcapped, fun g hg => ?_, fun m hm => ?_, h.heap, h.unused, h.records⟩
  · refine (hsame g).trans (h.known g fun hnone => hg ?_)
    show (w.characters.modifyMoney guid amount).find? g = none
    rw [Characters.modifyMoney_find?, hnone]
    rfl
  · exact (h.mails m hm).congr le_rfl hsame (h.mails m hm).items rfl

variable {amount : ℕ}

theorem Books.pay (h : Books s w money loose) {player : Character}
    (hplayer : w.characters.find? guid = some player) (hle : amount ≤ player.money) :
    Books s { w with characters := w.characters.pay guid amount } (money + amount) loose := by
  refine ⟨h.purse (Characters.pay_capped h.capped hplayer hle), ?_, h.items, h.units⟩
  have hpurses := Characters.pay_purses h.capped hplayer hle
  have htotal := h.total
  unfold World.total at htotal ⊢
  dsimp only
  omega

theorem Books.receive (h : Books s w (money + amount) loose) {player : Character}
    (hplayer : w.characters.find? guid = some player) (hamount : amount ≤ maxMoneyAmount)
    (hok : (modifyMoney player.money (toInt32 amount)).1 = true) :
    Books s { w with characters := w.characters.modifyMoney guid (toInt32 amount) } money loose := by
  obtain ⟨hmoney, hmax⟩ := modifyMoney_accepted hamount (h.capped.find? hplayer).2 hok
  refine ⟨h.purse (Characters.modifyMoney_capped h.capped hplayer hmoney hmax), ?_, h.items, h.units⟩
  have hpurses := Characters.modifyMoney_purses hplayer hmoney
  have htotal := h.total
  unfold World.total at htotal ⊢
  dsimp only
  omega

theorem Books.charge (h : Books s w (money + amount) loose) :
    Books s { w with postage := w.postage + amount } money loose := by
  refine ⟨⟨h.capped, h.known, fun m hm => ?_, h.heap, h.unused, h.records⟩, ?_, h.items, h.units⟩
  · exact (h.mails m hm).congr le_rfl (fun _ => rfl) (h.mails m hm).items rfl
  · have htotal := h.total
    unfold World.total at htotal ⊢
    dsimp only
    omega

/-! ### Mails -/

theorem mailItems_perm {mails mails' : List Mail} (h : mails.Perm mails') :
    (mailItems mails).Perm (mailItems mails') := h.flatMap_right Mail.items

theorem mailItems_cons (m : Mail) (mails : List Mail) : mailItems (m :: mails) = m.items ++ mailItems mails := rfl

theorem recordsOf_snoc {r : Record} (h : w'.records = w.records ++ [r]) (id : ℕ) :
    w'.recordsOf id = if r.mail = id then w.recordsOf id ++ [r] else w.recordsOf id := by
  unfold recordsOf
  rw [h, List.filter_append]
  by_cases hid : r.mail = id
  · rw [if_pos hid, List.filter_cons_of_pos (by simpa using hid), List.filter_nil]
  · rw [if_neg hid, List.filter_cons_of_neg (by simpa using hid), List.filter_nil, List.append_nil]

theorem Sound.mailItems_nodup (h : w.Sound loose) (hm : m ∈ w.mails) :
    (m.items ++ mailItems (w.mails.erase m.messageID).rows).Nodup := by
  have hall : (mailItems w.mails.rows).Nodup := (List.nodup_append.mp (List.nodup_append.mp h.nodup).1).2.1
  rwa [(mailItems_perm (w.mails.perm_erase hm)).nodup_iff, mailItems_cons] at hall

theorem Sound.mail_unique (h : w.Sound loose) {m b : Mail} (hm : m ∈ w.mails) (hb : b ∈ w.mails) {g : ℕ}
    (hg : g ∈ m.items) (hg' : g ∈ b.items) : b = m := by
  by_contra hne
  have hrest : b ∈ w.mails.erase m.messageID :=
    (w.mails.mem_erase m.messageID b).mpr ⟨hb, fun hid => hne (w.mails.eq_of_key_eq hb hm hid)⟩
  exact (List.nodup_append.mp (h.mailItems_nodup hm)).2.2 g hg g (List.mem_flatMap.mpr ⟨b, hrest, hg'⟩) rfl

theorem Books.post (h : Books s w (money + amount) loose) {sender receiver : ℕ}
    (hsender : sender ≠ 0 ∧ w.characters.mailable sender = true)
    (hreceiver : receiver ≠ 0 ∧ w.characters.mailable receiver = true) (hamount : amount ≤ maxMoneyAmount)
    (COD deliverTime : ℕ) : Books s (w.sendMailTo sender receiver amount COD loose deliverTime) money [] := by
  have hnew : ∀ b ∈ w.mails, b.messageID ≠ w.nextMailID := fun b hb => (h.mails b hb).messageID.ne
  have hrows : (w.sendMailTo sender receiver amount COD loose deliverTime).mails.rows = w.mails.rows ++
      [⟨w.nextMailID, .normal, sender, receiver, amount, COD, loose, deliverTime, false⟩] :=
    w.mails.rows_put_of_new hnew
  have hrecords : ∀ id, (w.sendMailTo sender receiver amount COD loose deliverTime).recordsOf id =
      if w.nextMailID = id then w.recordsOf id ++ [.sent w.nextMailID COD] else w.recordsOf id :=
    recordsOf_snoc (r := .sent w.nextMailID COD) rfl
  have hempty := h.unused w.nextMailID le_rfl
  have hplaced : (w.sendMailTo sender receiver amount COD loose deliverTime).placed = w.placed ++ loose := by
    unfold placed mailItems
    rw [hrows, List.flatMap_append, List.append_assoc]
    simp [sendMailTo]
  refine ⟨⟨h.capped, h.known, fun b hb => ?_, ?_, fun id hid => ?_, fun id => ?_⟩, ?_, ?_, h.units⟩
  · rw [KeyedList.mem_rows, hrows, List.mem_append, List.mem_singleton] at hb
    rcases hb with hb | rfl
    · refine (h.mails b hb).congr (Nat.le_succ _) (fun _ => rfl) (fun g hg => ?_) ?_
      · exact Finset.mem_union_left _ ((h.mails b hb).items g hg)
      · rw [hrecords, if_neg (hnew b hb).symm]
    · have hsent : (w.sendMailTo sender receiver amount COD loose deliverTime).recordsOf w.nextMailID =
          [.sent w.nextMailID COD] := by
        rw [hrecords, if_pos rfl, hempty, List.nil_append]
      refine ⟨Nat.lt_succ_self _, rfl, hsender, hreceiver, hamount, fun g hg => ?_, fun _ => hsent, fun hzero => ?_⟩
      · exact Finset.mem_union_right _ (List.mem_toFinset.mpr (List.mem_map.mpr ⟨g, hg, rfl⟩))
      · obtain rfl : COD = 0 := hzero
        exact hsent ▸ settled_sent w.nextMailID
  · rw [hplaced, List.append_nil]
    exact h.heap
  · have hlt : w.nextMailID < id := hid
    rw [hrecords, if_neg hlt.ne]
    exact h.unused id hlt.le
  · rw [hrecords]
    by_cases hid : w.nextMailID = id
    · subst hid
      rw [if_pos rfl, hempty]
      exact .inr (.inl ⟨COD, rfl⟩)
    · rw [if_neg hid]
      exact h.records id
  · have htotal := h.total
    unfold World.total at htotal ⊢
    rw [hrows, List.map_append, List.sum_append, List.map_singleton, List.sum_singleton]
    dsimp only [sendMailTo]
    omega
  · rw [hplaced, List.append_nil]
    exact h.items

theorem Books.unpost (h : Books s w money []) (hm : m ∈ w.mails) (mItems : Finset (ℕ × ℕ))
    (hothers : ∀ p ∈ w.mItems, p.2 ∉ m.items → p ∈ mItems) :
    Books s { w with mails := w.mails.erase m.messageID, mItems := mItems } (money + m.money) m.items := by
  have hperm := w.mails.perm_erase hm
  have hplaced : ((w.inventory.rows.map Holding.guid ++ mailItems (w.mails.erase m.messageID).rows) ++
      m.items).Perm w.placed := by
    unfold placed
    rw [List.append_assoc]
    refine (List.Perm.append_left _ ?_)
    exact List.perm_append_comm.trans (mailItems_perm hperm).symm
  refine ⟨⟨h.capped, h.known, fun b hb => ?_, ?_, h.unused, h.records⟩, ?_, ?_, h.units⟩
  · obtain ⟨hb, hne⟩ := (w.mails.mem_erase m.messageID b).mp hb
    refine (h.mails b hb).congr le_rfl (fun _ => rfl) (fun g hg => ?_) rfl
    refine hothers _ ((h.mails b hb).items g hg) fun hgm => hne ?_
    rw [h.mail_unique hm hb hgm hg]
  · have hheap := h.heap
    rw [List.append_nil] at hheap
    exact hplaced.trans hheap
  · have hsum := (hperm.map Mail.money).sum_nat
    have htotal := h.total
    rw [List.map_cons, List.sum_cons] at hsum
    unfold World.total at htotal ⊢
    dsimp only
    omega
  · have hitems := h.items
    rw [List.append_nil] at hitems
    exact (hplaced.append_right _).trans hitems

theorem Books.change (h : Books s w money loose) (hm : m ∈ w.mails) (f : Mail → Mail)
    (hf : ∀ a, (f a).messageID = a.messageID) (mItems : Finset (ℕ × ℕ)) (records : List Record) {d : ℕ}
    (out : List ℕ) (hmoney : (f m).money + d = m.money) (hout : ((f m).items ++ out).Perm m.items)
    (hw' : { w with mails := w.mails.adjust m.messageID f hf, mItems := mItems, records := records } = w')
    (hfine : w'.Fine (f m)) (hothers : ∀ b ∈ w.mails, b ≠ m → w'.Fine b)
    (hunused : ∀ id, w.nextMailID ≤ id → w'.recordsOf id = []) (hregular : ∀ id, Regular id (w'.recordsOf id)) :
    Books s w' (money + d) (loose ++ out) := by
  subst hw'
  have hbefore := w.mails.perm_erase hm
  have hafter := w.mails.perm_adjust hm f hf
  have hplaced : ((w.inventory.rows.map Holding.guid ++ mailItems (w.mails.adjust m.messageID f hf).rows) ++
      (loose ++ out)).Perm (w.placed ++ loose) := by
    unfold placed
    refine List.perm_iff_count.mpr fun x => ?_
    have hbefore := (mailItems_perm hbefore).count_eq x
    have hafter := (mailItems_perm hafter).count_eq x
    have hout := hout.count_eq x
    simp only [mailItems_cons, List.count_append] at hbefore hafter hout ⊢
    omega
  refine ⟨⟨h.capped, h.known, fun b hb => ?_, hplaced.trans h.heap, hunused, hregular⟩, ?_,
    (hplaced.append_right _).trans h.items, h.units⟩
  · rcases w.mails.mem_adjust_of_mem hm f hf hb with ⟨hne, hb⟩ | rfl
    · exact hothers b hb fun heq => hne (congrArg Mail.messageID heq)
    · exact hfine
  · have hbefore := (hbefore.map Mail.money).sum_nat
    have hafter := (hafter.map Mail.money).sum_nat
    have htotal := h.total
    rw [List.map_cons, List.sum_cons] at hbefore hafter
    unfold World.total at htotal ⊢
    dsimp only
    omega

theorem Books.delete (h : Books s w money loose) (hm : m ∈ w.mails) :
    Books s { w with mails := w.mails.adjust m.messageID (fun m => { m with deleted := true }) fun _ => rfl }
      money loose := by
  have hfine := h.mails m hm
  have hbooks := h.change hm (fun m => { m with deleted := true }) (fun _ => rfl) w.mItems w.records (d := 0) [] rfl
    (by rw [List.append_nil]) rfl
    ⟨hfine.messageID, hfine.normal, hfine.sender, hfine.receiver, hfine.money, hfine.items, hfine.due, hfine.settled⟩
    (fun b hb _ => (h.mails b hb).congr le_rfl (fun _ => rfl) (h.mails b hb).items rfl) h.unused h.records
  rwa [List.append_nil] at hbooks

theorem Books.takeMoney (h : Books s w money loose) (hm : m ∈ w.mails) :
    Books s { w with mails := w.mails.adjust m.messageID (fun m => { m with money := 0 }) fun _ => rfl }
      (money + m.money) loose := by
  have hfine := h.mails m hm
  have hbooks := h.change hm (fun m => { m with money := 0 }) (fun _ => rfl) w.mItems w.records (d := m.money) []
    (Nat.zero_add _) (by rw [List.append_nil]) rfl
    ⟨hfine.messageID, hfine.normal, hfine.sender, hfine.receiver, Nat.zero_le _, hfine.items, hfine.due, hfine.settled⟩
    (fun b hb _ => (h.mails b hb).congr le_rfl (fun _ => rfl) (h.mails b hb).items rfl) h.unused h.records
  rwa [List.append_nil] at hbooks

structure Recorded (w w' : World) (m : Mail) (r : Record) : Prop where
  same : w'.recordsOf m.messageID = w.recordsOf m.messageID ++ [r]
  others : ∀ b ∈ w.mails, b ≠ m → w'.recordsOf b.messageID = w.recordsOf b.messageID
  unused : ∀ id, w.nextMailID ≤ id → w'.recordsOf id = []
  regular : Settled m.messageID (w.recordsOf m.messageID ++ [r]) → ∀ id, Regular id (w'.recordsOf id)

theorem Sound.recorded (h : w.Sound loose) (hm : m ∈ w.mails) {r : Record}
    (hr : r.mail = m.messageID) (hrecords : w'.records = w.records ++ [r]) : w.Recorded w' m r := by
  have hrec := recordsOf_snoc hrecords
  rw [hr] at hrec
  have hsame := (hrec m.messageID).trans (if_pos rfl)
  refine ⟨hsame, fun b hb hne => ?_, fun id hid => ?_, fun hsettled id => ?_⟩
  · exact (hrec _).trans (if_neg fun hid => hne (w.mails.eq_of_key_eq hb hm hid.symm))
  · exact (hrec id).trans ((if_neg ((h.mails m hm).messageID.trans_le hid).ne).trans (h.unused id hid))
  · by_cases hid : m.messageID = id
    · subst hid
      exact hsame ▸ .inr (.inr hsettled)
    · rw [hrec, if_neg hid]
      exact h.records id

theorem Books.settle (h : Books s w money loose) (hm : m ∈ w.mails) (hCOD : m.COD ≠ 0) :
    Books s
      { w with
        mails := w.mails.adjust m.messageID (fun m => { m with COD := 0 }) fun _ => rfl
        records := w.records ++ [.paid m.messageID m.COD] } money loose := by
  have hfine := h.mails m hm
  generalize hw' : ({ w with
    mails := w.mails.adjust m.messageID (fun m => { m with COD := 0 }) fun _ => rfl
    records := w.records ++ [.paid m.messageID m.COD] } : World) = w'
  have hrec : w.Recorded w' m (.paid m.messageID m.COD) := h.recorded hm rfl (hw' ▸ rfl)
  have hpaid : Settled m.messageID (w.recordsOf m.messageID ++ [.paid m.messageID m.COD]) := by
    rw [hfine.due hCOD]
    exact settled_paid hCOD
  have hkeep : ∀ b ∈ w.mails, b ≠ m → w'.Fine b := fun b hb hne =>
    (h.mails b hb).congr (hw' ▸ le_rfl) (fun _ => hw' ▸ rfl) (hw' ▸ (h.mails b hb).items) (hrec.others b hb hne)
  have hsettled : w'.Fine { m with COD := 0 } := by
    refine ⟨?_, hfine.normal, ?_, ?_, hfine.money, ?_, fun hno => absurd rfl hno, fun _ => hrec.same ▸ hpaid⟩
    · exact hw' ▸ hfine.messageID
    · exact hw' ▸ hfine.sender
    · exact hw' ▸ hfine.receiver
    · exact hw' ▸ hfine.items
  have hbooks := h.change hm (fun m => { m with COD := 0 }) (fun _ => rfl) w.mItems _ (d := 0) []
    rfl (by rw [List.append_nil]) hw' hsettled hkeep hrec.unused (hrec.regular hpaid)
  rwa [List.append_nil] at hbooks

theorem Books.takeOut (h : Books s w money loose) (hm : m ∈ w.mails) (hCOD : m.COD = 0) {g : ℕ}
    (hg : g ∈ m.items) :
    Books s
      { w with
        mails := w.mails.adjust m.messageID (fun m => { m with items := m.items.erase g }) fun _ => rfl
        mItems := w.mItems.erase (m.receiver, g)
        records := w.records ++ [.handedOut m.messageID g] } money (loose ++ [g]) := by
  have hfine := h.mails m hm
  generalize hw' : ({ w with
    mails := w.mails.adjust m.messageID (fun m => { m with items := m.items.erase g }) fun _ => rfl
    mItems := w.mItems.erase (m.receiver, g)
    records := w.records ++ [.handedOut m.messageID g] } : World) = w'
  have hrec : w.Recorded w' m (.handedOut m.messageID g) := h.recorded hm rfl (hw' ▸ rfl)
  have hmItems : w'.mItems = w.mItems.erase (m.receiver, g) := hw' ▸ rfl
  have hsettled := (hfine.settled hCOD).handOut g
  have hnodup : m.items.Nodup := (List.nodup_append.mp (h.mailItems_nodup hm)).1
  have hkeep : ∀ b ∈ w.mails, b ≠ m → w'.Fine b := fun b hb hne => by
    refine (h.mails b hb).congr (hw' ▸ le_rfl) (fun _ => hw' ▸ rfl) (fun x hx => ?_) (hrec.others b hb hne)
    rw [hmItems]
    refine Finset.mem_erase.mpr ⟨fun heq => hne ?_, (h.mails b hb).items x hx⟩
    obtain rfl : x = g := (Prod.ext_iff.mp heq).2
    exact h.mail_unique hm hb hg hx
  have hrest : w'.Fine { m with items := m.items.erase g } := by
    refine ⟨?_, hfine.normal, ?_, ?_, hfine.money, fun x hx => ?_, fun hno => absurd hCOD hno,
      fun _ => hrec.same ▸ hsettled⟩
    · exact hw' ▸ hfine.messageID
    · exact hw' ▸ hfine.sender
    · exact hw' ▸ hfine.receiver
    · obtain ⟨hne, hx⟩ := hnodup.mem_erase_iff.mp hx
      rw [hmItems]
      exact Finset.mem_erase.mpr ⟨fun heq => hne (Prod.ext_iff.mp heq).2, hfine.items x hx⟩
  have hout : (m.items.erase g ++ [g]).Perm m.items :=
    (List.perm_append_singleton g _).trans (List.perm_cons_erase hg).symm
  exact h.change hm (fun m => { m with items := m.items.erase g }) (fun _ => rfl) _ _ (d := 0) [g]
    rfl hout hw' hrest hkeep hrec.unused (hrec.regular hsettled)

end World

end HysteriaCore.Mails

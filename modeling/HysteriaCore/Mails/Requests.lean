import HysteriaCore.Mails.Items

/-!
# Every request keeps the books
-/

namespace HysteriaCore.Mails
open Lib Objects

namespace World
variable {rules : Rules} {w s : World} {guid : ℕ}

/-- `CanStoreItem` answers with stacks of the player and no more than there is. -/
def Stores (rules : Rules) : Prop :=
  ∀ w guid it dest, rules.canStoreItem w guid it = some dest → w.Dest guid it dest

variable {m : Mail}

theorem of_getMail {id : ℕ} (h : w.getMail guid id = some m) :
    m ∈ w.mails ∧ m.messageID = id ∧ m.receiver = guid := by
  unfold getMail at h
  split at h
  · obtain ⟨hfind, hreceiver⟩ := Option.filter_eq_some_iff.mp h
    obtain ⟨hm, hid⟩ := (w.mails.find?_eq_some_iff id m).mp hfind
    exact ⟨hm, hid, of_decide_eq_true hreceiver⟩
  · cases h

/-! ### Sending -/

theorem attachAll_books {money : ℕ} (gs : List ℕ) {draft : List ℕ} (h : Books s w money draft)
    (hgs : ∀ g ∈ gs, g ∈ w.inventory.rows.map Holding.guid ++ draft) :
    Books s (gs.foldl attach (w, draft)).1 money (gs.foldl attach (w, draft)).2 ∧
      (gs.foldl attach (w, draft)).1.characters = w.characters := by
  induction gs generalizing w draft with
  | nil => exact ⟨h, rfl⟩
  | cons g gs ih =>
    have hg := hgs g List.mem_cons_self
    have hperm := h.attach_perm hg
    obtain ⟨hbooks, hsame⟩ := ih (h.attach hg) fun x hx => hperm.mem_iff.mpr (hgs x (List.mem_cons_of_mem g hx))
    exact ⟨hbooks, hsame⟩

theorem reqmoney_eq {count money : ℕ} (hcount : count ≤ maxMailItems)
    (h : ¬u32 (cost count + money) < money) : u32 (cost count + money) = cost count + money := by
  have hmax : maxMailItems = 12 := rfl
  have hcost : cost count ≤ 360 := by
    unfold cost
    split <;> omega
  unfold u32 at h ⊢
  omega

theorem getItemByGuid_mem {g : ℕ} (h : (w.getItemByGuid guid g).isSome = true) :
    g ∈ w.inventory.rows.map Holding.guid := by
  unfold getItemByGuid at h
  split at h
  next hheld =>
    obtain ⟨a, ha, -⟩ := (Option.any_eq_true _ _).mp hheld
    obtain ⟨hmem, rfl⟩ := (w.inventory.find?_eq_some_iff g a).mp ha
    exact List.mem_map_of_mem hmem
  · cases h

theorem Sound.mailable {loose : List ℕ} (h : w.Sound loose) {player : Character}
    (hplayer : w.characters.find? guid = some player) : guid ≠ 0 ∧ w.characters.mailable guid = true :=
  ⟨(h.capped.find? hplayer).1, h.known guid (by rw [hplayer]; exact Option.some_ne_none _)⟩

theorem send_books (h : Books s w 0 []) {r : SendRequest} {player receiver : Character}
    (hplayer : w.characters.find? guid = some player) (hreceiver : w.characters.find? r.receiver = some receiver)
    (hreq : u32 (cost r.itemGUIDs.length + r.money) = cost r.itemGUIDs.length + r.money)
    (hle : cost r.itemGUIDs.length + r.money ≤ player.money)
    (hitems : ∀ g ∈ r.itemGUIDs, g ∈ w.inventory.rows.map Holding.guid) (now : ℕ) :
    Books s (w.send rules guid r now) 0 [] := by
  have hmax : r.money ≤ maxMoneyAmount :=
    ((Nat.le_add_left _ _).trans hle).trans (h.capped.find? hplayer).2
  have hpaid := h.pay hplayer hle
  rw [show 0 + (cost r.itemGUIDs.length + r.money) = 0 + r.money + cost r.itemGUIDs.length by omega] at hpaid
  obtain ⟨hattached, hsame⟩ := attachAll_books r.itemGUIDs hpaid.charge
    fun g hg => List.mem_append_left _ (hitems g hg)
  have hmailable : ∀ g, (r.itemGUIDs.foldl attach
      ({ w with
        characters := w.characters.pay guid (cost r.itemGUIDs.length + r.money)
        postage := w.postage + cost r.itemGUIDs.length }, [])).1.characters.mailable g =
          w.characters.mailable g := fun g =>
    (congrArg (Characters.mailable · g) hsame).trans (Characters.modifyMoney_mailable w.characters guid _ g)
  have hsender := h.mailable hplayer
  have hto := h.mailable hreceiver
  unfold World.send
  rw [hreq]
  exact hattached.post ((hmailable _).symm ▸ hsender) ((hmailable _).symm ▸ hto) hmax _ _

theorem handleSendMail_books (h : Books s w 0 []) (guid : ℕ) (r : SendRequest) (now : ℕ) :
    Books s (w.handleSendMail rules guid r now) 0 [] := by
  unfold handleSendMail
  split
  · exact h
  next player hplayer =>
    dsimp only
    split
    · exact h
    next hchecks =>
      split
      · exact h
      next hreceiver =>
        obtain ⟨receiver, hto⟩ := Option.ne_none_iff_exists'.mp fun hnone => hreceiver (.inl hnone)
        split
        · exact h
        next hmoney =>
          split
          next hitems =>
            have hreq := reqmoney_eq (Nat.le_of_not_lt fun hlt => hchecks (.inl hlt)) fun hlt => hmoney (.inl hlt)
            have hle : u32 (cost r.itemGUIDs.length + r.money) ≤ player.money := by
              simpa [hasEnoughMoney] using fun hno => hmoney (.inr hno)
            refine send_books h hplayer hto hreq (hreq ▸ hle) (fun g hg => ?_) now
            have hchecked := (Bool.and_eq_true_iff.mp (List.all_eq_true.mp hitems g hg)).2
            exact getItemByGuid_mem (Option.isSome_of_any hchecked)
          · exact h

/-! ### Deleting and returning -/

theorem handleMailDelete_books (h : Books s w 0 []) (guid id : ℕ) :
    Books s (w.handleMailDelete rules guid id) 0 [] := by
  unfold handleMailDelete
  split
  · exact h
  next m hget =>
    split
    · exact h
    · obtain ⟨hm, rfl, -⟩ := of_getMail hget
      exact h.delete hm

theorem Sound.getMItem_isSome (h : w.Sound []) (hm : m ∈ w.mails) {g : ℕ} (hg : g ∈ m.items) :
    (w.getMItem m.receiver g).isSome = true := by
  have hplaced : g ∈ w.placed := List.mem_append_right _ (List.mem_flatMap.mpr ⟨m, hm, hg⟩)
  have hheap := h.heap
  rw [List.append_nil] at hheap
  obtain ⟨x, hx, rfl⟩ := List.mem_map.mp (hheap.mem_iff.mp hplaced)
  unfold getMItem
  rw [if_pos ((h.mails m hm).items _ hg), (w.items.find?_eq_some_iff x.guid x).mpr ⟨hx, rfl⟩]
  rfl

theorem foldl_addItem {draft gs : List ℕ} (h : (draft ++ gs).Nodup) : gs.foldl addItem draft = draft ++ gs := by
  induction gs generalizing draft with
  | nil => exact (List.append_nil draft).symm
  | cons g gs ih =>
    have hnew : g ∉ draft := fun hin => (List.nodup_append.mp h).2.2 g hin g List.mem_cons_self rfl
    rw [List.foldl_cons, addItem, if_neg hnew, ih (by simpa using h), List.append_assoc]
    rfl

theorem handleMailReturnToSender_books (h : Books s w 0 []) (guid id now : ℕ) :
    Books s (w.handleMailReturnToSender rules guid id now) 0 [] := by
  unfold handleMailReturnToSender
  split
  · exact h
  next m hget =>
    obtain ⟨hm, rfl, rfl⟩ := of_getMail hget
    have hfine := h.mails m hm
    split
    · exact h
    · rw [if_pos ⟨hfine.normal, hfine.sender.1⟩]
      have hdraft : (m.items.filter fun item => (w.getMItem m.receiver item).isSome).foldl addItem [] = m.items := by
        rw [List.filter_eq_self.mpr fun g hg => h.getMItem_isSome hm hg]
        exact foldl_addItem (List.nodup_append.mp (h.mailItems_nodup hm)).1
      have hopened := h.unpost hm (w.mItems \ (m.items.map fun item => (m.receiver, item)).toFinset)
        fun p hp hnot => Finset.mem_sdiff.mpr ⟨hp, fun hin => hnot ?_⟩
      · dsimp only
        rw [hdraft]
        unfold sendReturnToSender
        rw [if_pos hfine.sender.2]
        exact hopened.post hfine.receiver hfine.sender hfine.money 0 now
      · obtain ⟨g, hg, rfl⟩ := List.mem_map.mp (List.mem_toFinset.mp hin)
        exact hg

/-! ### Taking -/

theorem handleMailTakeMoney_books (h : Books s w 0 []) (guid id now : ℕ) :
    Books s (w.handleMailTakeMoney rules guid id now) 0 [] := by
  unfold handleMailTakeMoney
  split
  next player m hplayer hget =>
    obtain ⟨hm, rfl, rfl⟩ := of_getMail hget
    split
    · exact h
    split
    · exact h
    next hok =>
      have htaken := h.takeMoney hm
      exact (htaken.receive hplayer (h.mails m hm).money (by simpa using hok)).saveMail m.receiver
  · exact h

theorem settleCOD_books (h : Books s w 0 []) (hm : m ∈ w.mails) {player : Character}
    (hplayer : w.characters.find? guid = some player) (hle : m.COD ≤ player.money) (now : ℕ) :
    Books s (w.settleCOD guid m now) 0 [] ∧ { m with COD := 0 } ∈ (w.settleCOD guid m now).mails ∧
      (w.settleCOD guid m now).items = w.items ∧ (w.settleCOD guid m now).inventory = w.inventory := by
  have hfine := h.mails m hm
  unfold settleCOD
  by_cases hCOD : 0 < m.COD
  · rw [if_pos hCOD, if_pos hfine.sender.2]
    have hsame := Characters.modifyMoney_mailable w.characters guid (-toInt32 m.COD)
    have hposted : Books s ({ w with characters := w.characters.pay guid m.COD }.sendMailTo m.receiver m.sender
        m.COD 0 [] now) 0 [] :=
      (h.pay hplayer hle).post ((hsame _).symm ▸ hfine.receiver) ((hsame _).symm ▸ hfine.sender)
        (hle.trans (h.capped.find? hplayer).2) 0 now
    have hm' : m ∈ ({ w with characters := w.characters.pay guid m.COD }.sendMailTo m.receiver m.sender m.COD 0 []
        now).mails :=
      (w.mails.mem_put _ m).mpr (.inr ⟨hm, hfine.messageID.ne⟩)
    exact ⟨hposted.settle hm' hCOD.ne', KeyedList.adjust_mem _ hm' (fun m => { m with COD := 0 }) fun _ => rfl,
      rfl, rfl⟩
  · rw [if_neg hCOD]
    have heq : { m with COD := 0 } = m := by
      obtain ⟨id, messageType, sender, receiver, money, COD, items, deliverTime, deleted⟩ := m
      obtain rfl : COD = 0 := Nat.eq_zero_of_not_pos hCOD
      rfl
    exact ⟨h, heq.symm ▸ hm, rfl, rfl⟩

theorem handOut_books (h : Books s w 0 []) (hm : m ∈ w.mails) (hCOD : m.COD = 0) {it : Item}
    (hit : it ∈ w.items) (hg : it.guid ∈ m.items) {dest : List (ℕ × ℕ)} (hdest : w.Dest m.receiver it dest) :
    Books s (w.handOut m.receiver m.messageID it dest) 0 [] :=
  (h.takeOut hm hCOD hg).store hit ⟨hdest.entries, hdest.held, hdest.count⟩

theorem getMItem_mem {g : ℕ} {it : Item} (h : w.getMItem guid g = some it) : it ∈ w.items ∧ it.guid = g := by
  unfold getMItem at h
  split at h
  · exact (w.items.find?_eq_some_iff g it).mp h
  · cases h

theorem handleMailTakeItem_books (hrules : Stores rules) (h : Books s w 0 []) (guid id item now : ℕ) :
    Books s (w.handleMailTakeItem rules guid id item now) 0 [] := by
  unfold handleMailTakeItem
  split
  next player m hplayer hget =>
    obtain ⟨hm, rfl, rfl⟩ := of_getMail hget
    split
    · exact h
    split
    · exact h
    next hchecks =>
      split
      · exact h
      next it hgetItem =>
        split
        · exact h
        next dest hstore =>
          obtain ⟨hit, rfl⟩ := getMItem_mem hgetItem
          have hin : it.guid ∈ m.items := not_not.mp fun hno => hchecks (.inl hno)
          have hle : m.COD ≤ player.money := by simpa [hasEnoughMoney] using fun hno => hchecks (.inr hno)
          have hdest := hrules w m.receiver it dest hstore
          obtain ⟨hbooks, hm', hitems, hinventory⟩ := settleCOD_books h hm hplayer hle now
          have hout := handOut_books hbooks hm' rfl (hitems ▸ hit) hin
            ⟨hitems ▸ hdest.entries, hinventory ▸ hdest.held, hdest.count⟩
          exact hout.saveMail m.receiver
  · exact h

/-! ### Every run -/

theorem next_books (hrules : Stores rules) (h : Books s w 0 []) (e : Event) : Books s (w.next rules e) 0 [] := by
  cases e with
  | sendMail guid r now => exact handleSendMail_books h guid r now
  | delete guid id => exact handleMailDelete_books h guid id
  | returnToSender guid id now => exact handleMailReturnToSender_books h guid id now
  | takeItem guid id item now => exact handleMailTakeItem_books hrules h guid id item now
  | takeMoney guid id now => exact handleMailTakeMoney_books h guid id now
  | loadMail guid =>
    exact ⟨⟨h.capped, h.known, fun m hm => (h.mails m hm).congr le_rfl (fun _ => rfl) (h.mails m hm).items rfl,
      h.heap, h.unused, h.records⟩, h.total, h.items, h.units⟩
  | saveMail guid => exact h.saveMail guid

theorem books_of_reaches (hrules : Stores rules) (hs : s.Sound []) (h : Reaches (step rules) anyStep (Eq s) w) :
    Books s w 0 [] := by
  refine Reaches.invariant (I := fun w => Books s w 0 []) (fun w hw => ?_) (fun w e w' hw _ hstep => ?_) h
  · subst hw
    exact hs.books
  · obtain rfl := Option.some.inj hstep
    exact next_books hrules hw e

section Deleted
variable (w)

def undeleted : List Mail := w.mails.rows.filter fun m => !m.deleted

def deletedMails : List Mail := w.mails.rows.filter Mail.deleted ++ w.purged

def places : List ℕ :=
  w.inventory.rows.map Holding.guid ++ mailItems w.undeleted ++ mailItems w.deletedMails ++ w.merged

def allMoney : ℕ :=
  w.characters.purses + (w.undeleted.map Mail.money).sum + (w.deletedMails.map Mail.money).sum + w.postage

theorem perm_mails : (w.deletedMails ++ w.undeleted).Perm (w.mails.rows ++ w.purged) := by
  have hsplit := List.filter_append_perm Mail.deleted w.mails.rows
  refine List.perm_iff_count.mpr fun m => ?_
  have hcount := hsplit.count_eq m
  unfold deletedMails undeleted
  simp only [List.count_append] at hcount ⊢
  omega

theorem allMoney_eq : w.allMoney = w.total + w.postage := by
  have hsum := (w.perm_mails.map Mail.money).sum_nat
  rw [List.map_append, List.map_append, List.sum_append, List.sum_append] at hsum
  unfold allMoney total
  omega

theorem perm_places : w.places.Perm (w.placed ++ w.gone) := by
  refine List.perm_iff_count.mpr fun g => ?_
  have hcount := (mailItems_perm w.perm_mails).count_eq g
  unfold places placed gone
  unfold mailItems at hcount ⊢
  simp only [List.flatMap_append, List.count_append] at hcount ⊢
  omega

end Deleted

/-- Money is only lost as postage and with deleted mails; a mail hands out items only after its
COD has been paid, once; each item is in one place, and nothing of any entry is lost. -/
theorem conserved_of_reaches (hrules : Stores rules) (hs : s.Sound []) (hnew : s.gone = [])
    (h : Reaches (step rules) anyStep (Eq s) w) :
    w.allMoney = s.allMoney ∧ (∀ id, Regular id (w.recordsOf id)) ∧
      w.places.Perm (s.items.rows.map Item.guid) ∧ w.places.Nodup ∧
      ∀ e, units w.items.rows e + units w.destroyed e = units s.items.rows e + units s.destroyed e := by
  have hbooks := books_of_reaches hrules hs h
  have hplaces : w.places.Perm (s.items.rows.map Item.guid) := by
    have hitems := hbooks.items
    have hheap := hs.heap
    rw [hnew, List.append_nil, List.append_nil] at hitems
    rw [List.append_nil] at hheap
    exact w.perm_places.trans (hitems.trans hheap)
  refine ⟨?_, hbooks.records, hplaces, hplaces.nodup_iff.mpr s.items.distinct, hbooks.units⟩
  rw [allMoney_eq, allMoney_eq]
  exact hbooks.total

/-! ### A run with a COD -/

def sampleRules : Rules where
  canOpenMailBox _ _ := true
  sendChecks _ _ _ := true
  itemChecks _ _ _ _ := true
  deliverDelay _ _ _ := 0
  canStoreItem w guid it :=
    match w.inventory.rows.find? fun h =>
        decide (h.holder = guid) && (w.items.find? h.guid).any fun x => decide (x.entry = it.entry) with
    | some h => some [(h.guid, it.count)]
    | none => some []

theorem sampleRules_stores : Stores sampleRules := by
  intro w guid it dest h
  unfold sampleRules at h
  dsimp only at h
  split at h
  next a ha =>
    obtain rfl := Option.some.inj h
    have hmem := List.mem_of_find?_eq_some ha
    have hfound := List.find?_some ha
    obtain ⟨hholder, hentry⟩ := Bool.and_eq_true_iff.mp hfound
    obtain ⟨x, hx, hxe⟩ := (Option.any_eq_true _ _).mp hentry
    obtain ⟨hx, hguid⟩ := (w.items.find?_eq_some_iff a.guid x).mp hx
    refine ⟨fun p hp => ?_, fun p hp => ?_, by simp⟩
    · obtain rfl := List.mem_singleton.mp hp
      exact ⟨x, hx, hguid, of_decide_eq_true hxe⟩
    · obtain rfl := List.mem_singleton.mp hp
      exact ⟨a, hmem, rfl, of_decide_eq_true hholder⟩
  · obtain rfl := Option.some.inj h
    refine ⟨fun p hp => ?_, fun p hp => ?_, Nat.zero_le _⟩
    · cases hp
    · cases hp

def sample : World where
  characters := ⟨[⟨1, 11, true, 1000⟩, ⟨2, 12, true, 1000⟩], by decide⟩
  items := ⟨[⟨100, 7, 5⟩, ⟨101, 7, 3⟩, ⟨102, 8, 1⟩], by decide⟩
  inventory := ⟨[⟨1, 100⟩, ⟨2, 101⟩, ⟨1, 102⟩], by decide⟩
  mItems := ∅
  mails := ⟨[], List.nodup_nil⟩
  mailsLoaded := {1, 2}
  nextMailID := 1
  postage := 0
  purged := []
  destroyed := []
  merged := []
  records := []

def sampleRun : List Event :=
  [.sendMail 1 ⟨2, [100, 100], 50, 200⟩ 0, .takeItem 2 1 100 1, .takeMoney 2 1 1, .takeMoney 1 2 2,
    .sendMail 1 ⟨2, [102], 0, 500⟩ 3, .returnToSender 2 3 4, .delete 1 4, .saveMail 1]

theorem sample_sound : sample.Sound [] := by
  refine ⟨(by decide : ∀ c ∈ sample.characters.rows, c.guid ≠ 0 ∧ c.money ≤ maxMoneyAmount), fun g hg => ?_,
    fun m hm => ?_, by decide, fun _ _ => rfl, fun _ => .inl rfl⟩
  · obtain ⟨c, hc⟩ := Option.ne_none_iff_exists'.mp hg
    have honline : ∀ c ∈ sample.characters.rows, c.online = true := by decide
    exact Characters.mailable_of_online hc (honline c ((sample.characters.find?_eq_some_iff g c).mp hc).1)
  · cases hm

theorem conserved_of_reaches_sample : ∃ w, Reaches (step sampleRules) anyStep (Eq sample) w ∧
    w.recordsOf 1 = [.sent 1 200, .paid 1 200, .handedOut 1 100] ∧ w.merged = [100] ∧
    w.allMoney = sample.allMoney ∧ w.places.Nodup := by
  obtain ⟨w, hw, htest⟩ := Reaches.exists_of_replay (step sampleRules) anyStep (rfl : sample = sample) sampleRun
    (replayOk_anyStep ..)
    (fun w => decide (w.recordsOf 1 = [.sent 1 200, .paid 1 200, .handedOut 1 100] ∧ w.merged = [100]))
    (by decide +kernel)
  obtain ⟨hrecords, hmerged⟩ := of_decide_eq_true htest
  have hall := conserved_of_reaches sampleRules_stores sample_sound rfl hw
  exact ⟨w, hw, hrecords, hmerged, hall.1, hall.2.2.2.1⟩

end World

end HysteriaCore.Mails

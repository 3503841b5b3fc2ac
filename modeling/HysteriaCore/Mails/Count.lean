import HysteriaCore.Mails.Requests

/-!
# The number of mails of a player

`GlobalPlayerData::mailCount` follows the mailbox of a player by the changes that the handlers pass to
`UpdateGlobalPlayerMails`. Deleting a mail that is already deleted passes one change too many.
-/

namespace HysteriaCore.Mails
open Lib Objects

/-- A mail for anyone, from a player, an auction house, a creature or the calendar. -/
structure Draft where
  messageType : MailMessageType
  sender : ℕ
  receiver : ℕ
  money : ℕ
  COD : ℕ
  items : List ℕ
  deliverTime : ℕ

/-- The requests that change the number of mails, and what happens to a mailbox meanwhile. -/
inductive CountEvent where
  | sendMailTo (draft : Draft)
  | delete (guid id : ℕ)
  | returnToSender (guid id now : ℕ)
  | loadMail (guid : ℕ)
  | saveMail (guid : ℕ)

/-- The mails, and the calls of `UpdateGlobalPlayerMails` so far. -/
structure Counter where
  world : World
  updates : List (ℕ × ℤ)

def Mail.countsFor (guid : ℕ) (m : Mail) : Bool := decide (m.receiver = guid) && !m.deleted

namespace World
variable (rules : Rules) (w : World)

def mailCount (guid : ℕ) : ℕ := w.mails.rows.countP (Mail.countsFor guid)

def deliver (draft : Draft) : World :=
  { w with
    mails := w.mails.put ⟨w.nextMailID, draft.messageType, draft.sender, draft.receiver, draft.money,
      draft.COD, draft.items, draft.deliverTime, false⟩
    nextMailID := w.nextMailID + 1
    mItems := w.mItems ∪ (draft.items.map fun item => (draft.receiver, item)).toFinset
    records := w.records ++ [.sent w.nextMailID draft.COD] }

def deleteUpdates (guid id : ℕ) : List (ℕ × ℤ) :=
  match w.getMail guid id with
  | none => []
  | some m => if rules.canOpenMailBox w guid = false ∨ m.COD ≠ 0 then [] else [(guid, -1)]

/-- The changes that `HandleMailReturnToSender` passes on; the mail that goes back is one more for
the sender. -/
def returnUpdates (guid id now : ℕ) : List (ℕ × ℤ) :=
  match w.getMail guid id with
  | none => []
  | some m =>
    if rules.canOpenMailBox w guid = false ∨ m.deleted = true ∨ now < m.deliverTime then []
    else
      (if (m.messageType = .normal ∧ m.sender ≠ 0) ∧ w.characters.mailable m.sender = true
        then [(m.sender, 1)] else []) ++ [(guid, -1)]

def nextCount : CountEvent → World
  | .sendMailTo draft => w.deliver draft
  | .delete guid id => w.handleMailDelete rules guid id
  | .returnToSender guid id now => w.handleMailReturnToSender rules guid id now
  | .loadMail guid => { w with mailsLoaded := insert guid w.mailsLoaded }
  | .saveMail guid => w.saveMail guid

def updatesOf : CountEvent → List (ℕ × ℤ)
  | .sendMailTo draft => [(draft.receiver, 1)]
  | .delete guid id => w.deleteUpdates rules guid id
  | .returnToSender guid id now => w.returnUpdates rules guid id now
  | .loadMail _ => []
  | .saveMail _ => []

def NewIds : Prop := ∀ m ∈ w.mails, m.messageID < w.nextMailID

def DeletesOnce : CountEvent → Prop
  | .delete guid id => ∀ m ∈ w.getMail guid id,
      rules.canOpenMailBox w guid = true → m.COD = 0 → m.deleted = false
  | _ => True

instance : ∀ e, Decidable (w.DeletesOnce rules e)
  | .delete .. => inferInstanceAs (Decidable (∀ _ ∈ _, _))
  | .sendMailTo .. => isTrue trivial
  | .returnToSender .. => isTrue trivial
  | .loadMail .. => isTrue trivial
  | .saveMail .. => isTrue trivial

end World

def changes (updates : List (ℕ × ℤ)) (guid : ℕ) : ℤ :=
  (updates.map fun u => if u.1 = guid then u.2 else 0).sum

namespace Counter

def step (rules : Rules) (c : Counter) (e : CountEvent) : Option Counter :=
  some ⟨c.world.nextCount rules e, c.updates ++ c.world.updatesOf rules e⟩

def DeletesOnce (rules : Rules) (c : Counter) (e : CountEvent) : Prop := c.world.DeletesOnce rules e

instance (rules : Rules) (c : Counter) (e : CountEvent) : Decidable (c.DeletesOnce rules e) :=
  inferInstanceAs (Decidable (World.DeletesOnce ..))

end Counter

theorem changes_append (l l' : List (ℕ × ℤ)) (guid : ℕ) :
    changes (l ++ l') guid = changes l guid + changes l' guid := by
  rw [changes, changes, changes, List.map_append, List.sum_append]

theorem changes_nil (guid : ℕ) : changes [] guid = 0 := rfl

theorem changes_single (guid guid' : ℕ) (n : ℤ) :
    changes [(guid', n)] guid = if guid' = guid then n else 0 := by
  rw [changes, List.map_singleton, List.sum_singleton]

namespace World
variable {rules : Rules} {w : World} {guid : ℕ}

theorem mailCount_put (h : w.NewIds) (m : Mail) (hid : m.messageID = w.nextMailID)
    (hnew : m.deleted = false) (guid : ℕ) :
    (w.mails.put m).rows.countP (Mail.countsFor guid) =
      w.mailCount guid + if m.receiver = guid then 1 else 0 := by
  have hfresh : ∀ x ∈ w.mails, x.messageID ≠ m.messageID := by
    intro x hx heq
    have hlt := h x hx
    omega
  rw [w.mails.rows_put_of_new hfresh, List.countP_append, List.countP_singleton, mailCount]
  by_cases hguid : m.receiver = guid <;> simp [Mail.countsFor, hnew, hguid]

theorem mailCount_deliver (h : w.NewIds) (draft : Draft) (guid : ℕ) :
    (w.deliver draft).mailCount guid = w.mailCount guid + if draft.receiver = guid then 1 else 0 :=
  mailCount_put h _ rfl rfl guid

theorem mailCount_sendMailTo (h : w.NewIds) (sender receiver money COD : ℕ) (draft : List ℕ) (time : ℕ)
    (guid : ℕ) : (w.sendMailTo sender receiver money COD draft time).mailCount guid =
      w.mailCount guid + if receiver = guid then 1 else 0 :=
  mailCount_put h _ rfl rfl guid

theorem mailCount_sendReturnToSender (h : w.NewIds) (sender receiver money : ℕ) (draft : List ℕ)
    (now guid : ℕ) : (w.sendReturnToSender sender receiver money draft now).mailCount guid =
      w.mailCount guid + if w.characters.mailable receiver = true then if receiver = guid then 1 else 0
        else 0 := by
  rw [sendReturnToSender]
  split
  · exact mailCount_sendMailTo h ..
  · rfl

theorem mailCount_erase {m : Mail} (hm : m ∈ w.mails) (guid : ℕ) :
    w.mailCount guid = (w.mails.erase m.messageID).rows.countP (Mail.countsFor guid) +
      if m.countsFor guid then 1 else 0 := by
  rw [mailCount, (w.mails.perm_erase hm).countP_eq, List.countP_cons]

theorem mailCount_delete {m : Mail} (hm : m ∈ w.mails) (hstate : m.deleted = false) (guid : ℕ) :
    w.mailCount guid = (w.mails.adjust m.messageID (fun m => { m with deleted := true })
      fun _ => rfl).rows.countP (Mail.countsFor guid) + if m.receiver = guid then 1 else 0 := by
  have hgone : Mail.countsFor guid { m with deleted := true } = false := by
    rw [Mail.countsFor, Bool.not_true, Bool.and_false]
  rw [mailCount_erase hm, (w.mails.perm_adjust hm _ _).countP_eq, List.countP_cons_of_neg (by simp [hgone])]
  by_cases hguid : m.receiver = guid <;> simp [Mail.countsFor, hstate, hguid]

theorem mailCount_saveMail (owner guid : ℕ) : (w.saveMail owner).mailCount guid = w.mailCount guid := by
  rw [saveMail]
  split
  · show (w.mails.rows.filter fun m => !m.isGone owner).countP _ = w.mails.rows.countP _
    rw [List.countP_filter]
    refine List.countP_congr fun m _ => ?_
    simp only [Mail.countsFor, Mail.isGone, Bool.and_eq_true, Bool.not_eq_true']
    constructor
    · exact fun h => h.1
    · exact fun h => ⟨h, by simp [h.2]⟩
  · rfl

theorem mailCount_nextCount (h : w.NewIds) {e : CountEvent} (hok : w.DeletesOnce rules e) (guid : ℕ) :
    ((w.nextCount rules e).mailCount guid : ℤ) =
      w.mailCount guid + changes (w.updatesOf rules e) guid := by
  cases e with
  | sendMailTo draft =>
    rw [nextCount, updatesOf, mailCount_deliver h, changes_single]
    split <;> omega
  | loadMail owner => exact (Int.add_zero _).symm
  | saveMail owner =>
    rw [nextCount, updatesOf, mailCount_saveMail]
    exact (Int.add_zero _).symm
  | delete owner id =>
    rw [nextCount, updatesOf, handleMailDelete, deleteUpdates]
    cases hget : w.getMail owner id with
    | none => exact (Int.add_zero _).symm
    | some m =>
      dsimp only
      by_cases hguard : rules.canOpenMailBox w owner = false ∨ m.COD ≠ 0
      · rw [if_pos hguard, if_pos hguard]
        exact (Int.add_zero _).symm
      · rw [if_neg hguard, if_neg hguard, changes_single]
        obtain ⟨hm, rfl, rfl⟩ := of_getMail hget
        obtain ⟨hopen, hCOD⟩ := not_or.mp hguard
        have hstate := hok m hget (by simpa using hopen) (by simpa using hCOD)
        have hcount := mailCount_delete hm hstate guid
        show (((w.mails.adjust m.messageID (fun m => { m with deleted := true })
          fun _ => rfl).rows.countP (Mail.countsFor guid) : ℕ) : ℤ) = _
        split at hcount
        · rw [if_pos ‹_›]
          omega
        · rw [if_neg ‹_›]
          omega
  | returnToSender owner id now =>
    rw [nextCount, updatesOf, handleMailReturnToSender, returnUpdates]
    cases hget : w.getMail owner id with
    | none => exact (Int.add_zero _).symm
    | some m =>
      dsimp only
      by_cases hguard : rules.canOpenMailBox w owner = false ∨ m.deleted = true ∨ now < m.deliverTime
      · rw [if_pos hguard, if_pos hguard]
        exact (Int.add_zero _).symm
      · rw [if_neg hguard, if_neg hguard, changes_append, changes_single]
        obtain ⟨hm, rfl, rfl⟩ := of_getMail hget
        have hstate : m.deleted = false := by simpa using (not_or.mp (not_or.mp hguard).2).1
        obtain ⟨w', hw'⟩ : ∃ w' : World, w' = { w with
            mails := w.mails.erase m.messageID
            mItems := w.mItems \ (m.items.map fun item => (m.receiver, item)).toFinset } := ⟨_, rfl⟩
        have hids : w'.NewIds := by
          intro x hx
          rw [hw'] at hx ⊢
          exact h x ((w.mails.mem_erase _ _).mp hx).1
        have herase : (w.mailCount guid : ℤ) + (if m.receiver = guid then -1 else 0) =
            (w'.mailCount guid : ℤ) := by
          have hcount := mailCount_erase hm guid
          rw [show (w.mails.erase m.messageID).rows.countP (Mail.countsFor guid) = w'.mailCount guid by
            rw [hw', mailCount]] at hcount
          by_cases hguid : m.receiver = guid
          · rw [if_pos (by simp [Mail.countsFor, hstate, hguid])] at hcount
            rw [if_pos hguid]
            omega
          · rw [if_neg (by simp [Mail.countsFor, hguid])] at hcount
            rw [if_neg hguid]
            omega
        by_cases hnormal : m.messageType = .normal ∧ m.sender ≠ 0
        · have hsame : w.characters.mailable m.sender = w'.characters.mailable m.sender := by rw [hw']
          rw [if_pos hnormal, ← hw', mailCount_sendReturnToSender hids, hsame]
          by_cases hmailable : w'.characters.mailable m.sender = true
          · rw [if_pos hmailable, if_pos (And.intro hnormal hmailable), changes_single]
            by_cases hsender : m.sender = guid
            · rw [if_pos hsender, if_pos hsender]
              omega
            · rw [if_neg hsender, if_neg hsender]
              omega
          · rw [if_neg hmailable, if_neg fun hboth => hmailable hboth.2, changes_nil]
            omega
        · rw [if_neg hnormal, if_neg fun hboth => hnormal hboth.1, changes_nil]
          refine (congrArg Nat.cast (show _ = w'.mailCount guid from ?_)).trans ?_
          · rw [hw']
            rfl
          · omega

/-! ### Runs -/

theorem newIds_deliver (h : w.NewIds) (m : Mail) (hid : m.messageID = w.nextMailID) :
    ∀ x ∈ w.mails.put m, x.messageID < w.nextMailID + 1 := by
  intro x hx
  rcases (w.mails.mem_put m x).mp hx with rfl | ⟨hold, -⟩
  · omega
  · have hlt := h x hold
    omega

theorem newIds_nextCount (h : w.NewIds) (e : CountEvent) : (w.nextCount rules e).NewIds := by
  cases e with
  | sendMailTo draft => exact newIds_deliver h _ rfl
  | loadMail owner => exact h
  | saveMail owner =>
    rw [nextCount, saveMail]
    split
    · exact fun x hx => h x ((w.mails.mem_filter _ _).mp hx).1
    · exact h
  | delete owner id =>
    rw [nextCount, handleMailDelete]
    split
    · exact h
    · split
      · exact h
      · intro x hx
        obtain ⟨y, hy, rfl⟩ := (w.mails.mem_adjust id
          (fun m => { m with deleted := true }) (fun _ => rfl) x).mp hx
        have hlt := h y hy
        split <;> exact hlt
  | returnToSender owner id now =>
    rw [nextCount, handleMailReturnToSender]
    split
    · exact h
    · split
      · exact h
      · have herase : ∀ x ∈ w.mails.erase id, x.messageID < w.nextMailID :=
          fun x hx => h x ((w.mails.mem_erase _ _).mp hx).1
        split
        · dsimp only
          rw [sendReturnToSender]
          split
          · exact newIds_deliver (w := { w with mails := w.mails.erase id }) herase _ rfl
          · exact herase
        · exact herase

end World

/-- The changes passed on make up the change of the number of mails of every player, as long as no
mail is deleted twice. -/
theorem Counter.changes_of_reaches {rules : Rules} {s : World} {c : Counter} (hnew : s.NewIds)
    (h : Reaches (step rules) (DeletesOnce rules) (Eq ⟨s, []⟩) c) (guid : ℕ) :
    changes c.updates guid = (c.world.mailCount guid : ℤ) - s.mailCount guid := by
  have hinv : c.world.NewIds ∧
      ∀ guid, (c.world.mailCount guid : ℤ) = s.mailCount guid + changes c.updates guid := by
    refine Reaches.invariant (I := fun c => c.world.NewIds ∧
      ∀ guid, (c.world.mailCount guid : ℤ) = s.mailCount guid + changes c.updates guid) ?_ ?_ h
    · rintro c rfl
      exact ⟨hnew, fun guid => by rw [changes_nil, Int.add_zero]⟩
    · rintro c e t ⟨hids, hcount⟩ hok hstep
      obtain rfl := Option.some.inj hstep
      refine ⟨World.newIds_nextCount hids e, fun guid => ?_⟩
      have hlast := World.mailCount_nextCount hids hok guid
      have hbefore := hcount guid
      rw [changes_append]
      dsimp only at hlast ⊢
      omega
  have hsum := hinv.2 guid
  omega

/-! ### A mail that is deleted twice -/

namespace World

def sampleLetter : Draft := ⟨.normal, 1, 2, 0, 0, [], 0⟩

theorem sample_newIds : sample.NewIds := by
  intro m hm
  cases hm

theorem changes_of_reaches_sample : ∃ c, Reaches (Counter.step sampleRules) (Counter.DeletesOnce sampleRules)
    (Eq ⟨sample, []⟩) c ∧ c.updates = [(2, 1), (2, 1), (2, -1), (1, 1), (2, -1)] ∧
    changes c.updates 1 = (c.world.mailCount 1 : ℤ) - sample.mailCount 1 := by
  obtain ⟨c, hc, htest⟩ := Reaches.exists_of_replay (Counter.step sampleRules) (Counter.DeletesOnce sampleRules)
    (rfl : (⟨sample, []⟩ : Counter) = _)
    [.sendMailTo sampleLetter, .sendMailTo sampleLetter, .delete 2 1, .returnToSender 2 2 0]
    (by decide +kernel)
    (fun c => decide (c.updates = [(2, 1), (2, 1), (2, -1), (1, 1), (2, -1)])) (by decide +kernel)
  exact ⟨c, hc, of_decide_eq_true htest, Counter.changes_of_reaches sample_newIds hc 1⟩

/-- Two mails, one of them deleted twice: both are taken off the number, and one is still there. -/
theorem deleted_mail_counts_again : ∃ c, Reaches (Counter.step sampleRules) anyStep (Eq ⟨sample, []⟩) c ∧
    changes c.updates 2 = 0 ∧ c.world.mailCount 2 = 1 ∧ sample.mailCount 2 = 0 := by
  obtain ⟨c, hc, htest⟩ := Reaches.exists_of_replay (Counter.step sampleRules) anyStep
    (rfl : (⟨sample, []⟩ : Counter) = _)
    [.sendMailTo sampleLetter, .sendMailTo sampleLetter, .delete 2 1, .delete 2 1] (replayOk_anyStep ..)
    (fun c => decide (changes c.updates 2 = 0 ∧ c.world.mailCount 2 = 1 ∧ sample.mailCount 2 = 0))
    (by decide +kernel)
  exact ⟨c, hc, of_decide_eq_true htest⟩

end World

end HysteriaCore.Mails

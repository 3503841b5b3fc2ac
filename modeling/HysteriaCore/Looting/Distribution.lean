import HysteriaCore.Looting.HandOut

/-!
# No entry is handed out twice

The four ways out of a loot read different marks. Over a run of a group they agree as long as each
of them finds the marks of the others: `LootItemInSlot` passes over the flag of an item that is on
the player's list and gives an entry for all to one who is on no list, the master looter and the
rolls look at no mark, and a roll for an entry for all marks it in no list.
-/

namespace HysteriaCore.Looting
open Lib

variable {e : Evaluation}

namespace Roll

def NeedOk (e : Evaluation) (s : Roll × Loot) : Prop :=
  s.1.totalNeed ≠ 0 → ∀ v ∈ (s.1.contest (· = .need) e).winner, s.2.AwardOk s.1 v.guid e

def GreedOk (e : Evaluation) (s : Roll × Loot) : Prop :=
  s.1.totalNeed = 0 → s.1.totalGreed ≠ 0 →
    ∀ v ∈ (s.1.contest (fun v => v = .greed || v = .disenchant) e).winner,
      v.vote = .greed → s.2.AwardOk s.1 v.guid e

variable {s : Roll × Loot}

theorem countNeed_givenOnce (h : s.2.GivenOnce) (hok : NeedOk e s) : (countNeed e s).2.GivenOnce := by
  rw [countNeed]
  split
  · rename_i hneed
    dsimp only
    cases hwin : (s.1.contest (· = .need) e).winner with
    | none => exact h
    | some v => exact h.award (hok hneed.1 v hwin)
  · exact h

theorem countGreed_givenOnce (h : s.2.GivenOnce) (hok : GreedOk e s) : (countGreed e s).2.GivenOnce := by
  rw [countGreed]
  split
  · rename_i hgreed
    dsimp only
    cases hwin : (s.1.contest (fun v => v = .greed || v = .disenchant) e).winner with
    | none => exact h
    | some v =>
      dsimp only
      split
      · rename_i hvote
        exact h.award (hok hgreed.1 hgreed.2.1 v hwin hvote)
      · exact h.keep (h.wf.giveAway (f := LootItem.markLooted) (fun _ => rfl) (fun _ => rfl) _)
          (.giveAway s.2 Loot.keeps_markLooted _)
  · exact h

theorem countPass_givenOnce (h : s.2.GivenOnce) : (countPass s).GivenOnce := by
  rw [countPass]
  split
  · exact h.keep (h.wf.edit (f := Loot.unblock) (fun _ => rfl) (fun _ => rfl) _)
      (.edit s.2 (f := Loot.unblock) (fun _ => ⟨rfl, id, id⟩) _)
  · exact h

end Roll

namespace World

def CountOk (w : World) (r : Roll) (e : Evaluation) : Prop :=
  ∀ id ∈ r.loot, Roll.NeedOk e (r, w.loots id) ∧ Roll.GreedOk e (Roll.countNeed e (r, w.loots id))

def VoteOk (w : World) (guid itemGUID choice : ℕ) (e : Evaluation) : Prop :=
  ∀ r ∈ w.rollFor guid itemGUID choice,
    (r.choose guid choice).complete = true → w.CountOk (r.choose guid choice) e

def LeaveOk (guid : ℕ) (e : ℕ → Evaluation) (w : World) (itemGUID : ℕ) : Prop :=
  ∀ r ∈ w.rolls.find? itemGUID, ∀ v ∈ r.playerVote.find? guid,
    VoteOk { w with rolls := w.rolls.adjust itemGUID (Roll.leave · v) (Roll.leave_itemGUID v) }
      guid itemGUID MAX_ROLL_TYPE (e itemGUID)

def EndOk (id : ℕ) (e : ℕ → Evaluation) (w : World) (r : Roll) : Prop :=
  r.loot = some id → w.CountOk r (e r.itemGUID)

def GivesFree (proto : ℕ → Option ItemTemplate) (w : World) : Event → Prop
  | .fillLoot id f =>
    Loot.FillOk proto (Loot.TokensOk proto (Loot.StoresFresh proto)) (w.loots id) (w.toldFilling f)
  | .fillNotNormalLootFor id v =>
    Loot.TokensOk proto (Loot.StoresFresh proto) (w.loots id) (w.toldVisitor v)
  | .storeLootItem id guid a lootSlot =>
    (w.loots id).StoresFresh proto guid (w.told guid a) lootSlot
  | .masterGive id _ target a slotid => (w.loots id).GiveOk proto target (w.told target a) slotid
  | .lootRoll guid itemGUID rollType e => w.VoteOk guid itemGUID rollType e
  | .removeMember guid e => along (leaveRoll guid e) (LeaveOk guid e) (w.rolls.rows.map Roll.itemGUID) w
  | .endRoll id e => along (endRollOf id e) (EndOk id e) w.rolls.rows w
  | _ => True

def GivesOnce (w : World) : Prop := ∀ id, (w.loots id).GivenOnce

variable {proto : ℕ → Option ItemTemplate} {w : World}

theorem GivesOnce.setLoot (h : w.GivesOnce) {id : ℕ} {loot : Loot} (hloot : loot.GivenOnce) :
    (w.setLoot id loot).GivesOnce := by
  intro id'
  by_cases hid : id' = id
  · subst hid
    show (Function.update w.loots id' loot id').GivenOnce
    rw [Function.update_self]
    exact hloot
  · show (Function.update w.loots id loot id').GivenOnce
    rw [Function.update_of_ne hid]
    exact h id'

theorem GivesOnce.countTheRoll (h : w.GivesOnce) {r : Roll} (hok : w.CountOk r e) :
    (w.countTheRoll r e).GivesOnce := by
  rw [World.countTheRoll]
  cases hr : r.loot with
  | none => exact h
  | some id =>
    obtain ⟨hneed, hgreed⟩ := hok id hr
    refine GivesOnce.setLoot (w := { w with rolls := w.rolls.erase r.itemGUID }) h ?_
    have hfirst : (Roll.countNeed e (r, w.loots id)).2.GivenOnce :=
      Roll.countNeed_givenOnce (h id) hneed
    exact Roll.countPass_givenOnce (Roll.countGreed_givenOnce hfirst hgreed)

theorem GivesOnce.countRollVote (h : w.GivesOnce) {guid itemGUID choice : ℕ}
    (hok : w.VoteOk guid itemGUID choice e) : (w.countRollVote guid itemGUID choice e).GivesOnce := by
  rw [World.countRollVote]
  cases hr : w.rollFor guid itemGUID choice with
  | none => exact h
  | some r =>
    dsimp only
    split
    · rename_i hall
      exact GivesOnce.countTheRoll (w := { w with
        rolls := w.rolls.adjust itemGUID (Roll.choose · guid choice) (Roll.choose_itemGUID · _ _)
        evaluated := w.evaluated ++ [r.choose guid choice] }) h (hok r hr hall)
    · exact h

variable {e : ℕ → Evaluation}

theorem GivesOnce.leaveRoll (h : w.GivesOnce) {guid : ℕ} {itemGUID : ℕ}
    (hok : LeaveOk guid e w itemGUID) : (w.leaveRoll guid e itemGUID).GivesOnce := by
  rw [World.leaveRoll]
  cases hr : w.rolls.find? itemGUID with
  | none => exact h
  | some r =>
    dsimp only
    cases hv : r.playerVote.find? guid with
    | none => exact h
    | some v => exact GivesOnce.countRollVote (w := { w with
        rolls := w.rolls.adjust itemGUID (Roll.leave · v) fun _ => rfl }) h (hok r hr v hv)

theorem GivesOnce.removeMember (h : w.GivesOnce) {guid : ℕ}
    (hok : along (World.leaveRoll guid e) (LeaveOk guid e) (w.rolls.rows.map Roll.itemGUID) w) :
    (w.removeMember guid e).GivesOnce := by
  rw [World.removeMember]
  by_cases hmany : (if w.smallGroup then 1 else 2) < w.members.length
  · rw [if_pos hmany]
    have hrolls := along.invariant (fun w itemGUID (h : w.GivesOnce) hok => h.leaveRoll hok) h hok
    exact hrolls
  · rw [if_neg hmany]
    exact h

theorem GivesOnce.endRoll (h : w.GivesOnce) {id : ℕ}
    (hok : along (endRollOf id e) (EndOk id e) w.rolls.rows w) : (w.endRoll id e).GivesOnce := by
  refine along.invariant (fun w r (h : w.GivesOnce) hok => ?_) h hok
  rw [endRollOf]
  split
  · rename_i hr
    exact h.countTheRoll (hok hr)
  · exact h

theorem GivesOnce.startRoll (h : w.GivesOnce) (id itemSlot : ℕ) (p : Place) (item : LootItem)
    (autoPass : Bool) (looters : List Looter) :
    (w.startRoll proto id itemSlot p item autoPass looters).GivesOnce := by
  rw [World.startRoll]
  dsimp only
  split
  · have hedit : ((w.loots id).edit LootItem.markBlocked p).GivenOnce :=
      (h id).keep ((h id).wf.edit (f := LootItem.markBlocked) (fun _ => rfl) (fun _ => rfl) p)
        (.edit _ (f := LootItem.markBlocked) (fun _ => ⟨rfl, fun h => h, fun h => h⟩) p)
    exact GivesOnce.setLoot (w := { w with nextItemGuid := w.nextItemGuid + 1 }) h hedit
  · exact h

theorem GivesOnce.groupLoot (h : w.GivesOnce) (id : ℕ) (looters : List Looter) :
    (w.groupLoot proto id looters).GivesOnce := by
  refine foldl_invariant (fun w i (h : w.GivesOnce) => ?_) _
    (foldl_invariant (fun w i (h : w.GivesOnce) => ?_) _ h)
  · rw [rollQuestItem]
    cases (w.loots id).questItems[i]? with
    | none => exact h
    | some item =>
      dsimp only
      split
      · exact h
      · exact h.startRoll id _ _ item false looters
  · rw [rollItem]
    cases (w.loots id).items[i]? with
    | none => exact h
    | some item =>
      dsimp only
      split
      · exact h
      · cases proto item.itemid with
        | none => exact h
        | some p =>
          dsimp only
          split
          · exact h.startRoll id _ _ item true looters
          · refine h.setLoot ((h id).keep ?_ ?_)
            · exact (h id).wf.edit (f := fun item => { item with isUnderthreshold := true })
                (fun _ => rfl) (fun _ => rfl) _
            · exact .edit _ (f := fun item => { item with isUnderthreshold := true })
                (fun _ => ⟨rfl, fun h => h, fun h => h⟩) _

theorem GivesOnce.step {t : World} (h : w.GivesOnce) {e : Event} (hok : w.GivesFree proto e)
    (hs : w.step proto e = some t) : t.GivesOnce := by
  cases e with
  | fillLoot id f =>
    cases hs
    exact h.setLoot ((h id).fillLoot hok)
  | fillNotNormalLootFor id v =>
    cases hs
    exact h.setLoot ((h id).fillNotNormalLootFor hok)
  | groupLoot id looters =>
    obtain ⟨-, rfl⟩ := guarded_eq_some.mp hs
    exact h.groupLoot id _
  | needBeforeGreed id looters =>
    obtain ⟨-, rfl⟩ := guarded_eq_some.mp hs
    exact h.groupLoot id _
  | masterLoot id =>
    cases hs
    exact h.setLoot ((h id).keep (h id).wf.masterLoot (.masterLoot _))
  | storeLootItem id guid a lootSlot =>
    cases hs
    exact h.setLoot ((h id).storeLootItem hok)
  | masterGive id giver target a slotid =>
    obtain ⟨-, rfl⟩ := guarded_eq_some.mp hs
    exact h.setLoot ((h id).masterGive hok)
  | lootRoll guid itemGUID rollType e =>
    obtain ⟨-, rfl⟩ := guarded_eq_some.mp hs
    exact h.countRollVote hok
  | addMember guid =>
    obtain ⟨-, rfl⟩ := guarded_eq_some.mp hs
    exact h
  | removeMember guid e =>
    cases hs
    exact h.removeMember hok
  | disband =>
    cases hs
    exact h
  | setLootMethod group =>
    cases hs
    exact h
  | endRoll id e =>
    cases hs
    exact h.endRoll hok
  | clear id =>
    cases hs
    exact h.setLoot (.new 0)

/-- In every run in which each way out of a loot is right about the marks, no entry for one player
is handed out twice, and none for all twice to one player. -/
theorem once_of_reaches (h : Reaches (step proto) (GivesFree proto) Started w) (id : ℕ) :
    (w.loots id).taken.Pairwise Taken.Apart := by
  have hinv : w.GivesOnce := by
    refine h.invariant (fun w hw id => ?_) fun w e t hw hok hs => hw.step hok hs
    obtain ⟨gold, hgold⟩ := hw.2.2.2 id
    rw [hgold]
    exact .new gold
  exact (hinv id).once

section Samples

instance (proto : ℕ → Option ItemTemplate) (loot : Loot) (guid : ℕ) (a : Answers) (slot : ℕ) :
    Decidable (loot.StoresFresh proto guid a slot) :=
  inferInstanceAs (Decidable (∀ f ∈ loot.grant proto guid a slot,
    a.canStoreNewItem f.item.itemid f.item.count = EQUIP_ERR_OK → f.item.count ≠ 0 →
      if f.item.freeforall then f.own.isSome = true else f.item.isLooted = false))

instance (loot : Loot) (r : Roll) (guid : ℕ) (e : Evaluation) : Decidable (loot.AwardOk r guid e) :=
  inferInstanceAs (Decidable (∀ item ∈ loot.entry (loot.placeOf r.itemSlot), _ → _ → _ ∧ _))

instance (proto : ℕ → Option ItemTemplate) (loot : Loot) (target : ℕ) (a : Answers) (slotid : ℕ) :
    Decidable (loot.GiveOk proto target a slotid) :=
  inferInstanceAs (Decidable (∀ item ∈ loot.entry (loot.placeOf slotid), _ ∨ _ → _ → _ → _))

instance (e : Evaluation) (s : Roll × Loot) : Decidable (Roll.NeedOk e s) :=
  inferInstanceAs (Decidable (_ → ∀ v ∈ _, _))

instance (e : Evaluation) (s : Roll × Loot) : Decidable (Roll.GreedOk e s) :=
  inferInstanceAs (Decidable (_ → _ → ∀ v ∈ _, _ → _))

instance (w : World) (r : Roll) (e : Evaluation) : Decidable (w.CountOk r e) :=
  inferInstanceAs (Decidable (∀ id ∈ _, _ ∧ _))

instance (w : World) (guid itemGUID choice : ℕ) (e : Evaluation) :
    Decidable (w.VoteOk guid itemGUID choice e) :=
  inferInstanceAs (Decidable (∀ r ∈ _, _ → _))

instance (guid : ℕ) (e : ℕ → Evaluation) (w : World) (itemGUID : ℕ) :
    Decidable (LeaveOk guid e w itemGUID) :=
  inferInstanceAs (Decidable (∀ r ∈ w.rolls.find? itemGUID, ∀ v ∈ r.playerVote.find? guid,
    VoteOk { w with rolls := w.rolls.adjust itemGUID (Roll.leave · v) fun _ => rfl }
      guid itemGUID MAX_ROLL_TYPE (e itemGUID)))

instance (id : ℕ) (e : ℕ → Evaluation) (w : World) (r : Roll) : Decidable (EndOk id e w r) :=
  inferInstanceAs (Decidable (_ → _))

instance (proto : ℕ → Option ItemTemplate) (w : World) : ∀ e, Decidable (w.GivesFree proto e)
  | .fillLoot id f => inferInstanceAs (Decidable (Loot.FillOk proto _ (w.loots id) (w.toldFilling f)))
  | .fillNotNormalLootFor id v =>
    inferInstanceAs (Decidable (Loot.TokensOk proto _ (w.loots id) (w.toldVisitor v)))
  | .storeLootItem id guid a lootSlot =>
    inferInstanceAs (Decidable ((w.loots id).StoresFresh proto guid (w.told guid a) lootSlot))
  | .masterGive id _ target a slotid =>
    inferInstanceAs (Decidable ((w.loots id).GiveOk proto target (w.told target a) slotid))
  | .lootRoll guid itemGUID rollType e =>
    inferInstanceAs (Decidable (w.VoteOk guid itemGUID rollType e))
  | .removeMember guid e =>
    inferInstanceAs (Decidable (along (leaveRoll guid e) (LeaveOk guid e)
      (w.rolls.rows.map Roll.itemGUID) w))
  | .endRoll id e => inferInstanceAs (Decidable (along (endRollOf id e) (EndOk id e) w.rolls.rows w))
  | .groupLoot .. | .needBeforeGreed .. | .masterLoot .. | .addMember .. | .disband |
    .setLootMethod .. | .clear .. => isTrue trivial

/-- Player 1 wins the item by need, and player 2 takes the quest item of his list. -/
theorem once_of_reaches_taken : ∃ w, Reaches (step ordinary) (GivesFree ordinary) Started w ∧
    (w.loots 0).taken = [⟨.item 0, 1, false⟩, ⟨.quest 0, 2, false⟩] ∧
    (w.loots 0).taken.Pairwise Taken.Apart := by
  obtain ⟨w, hw, h⟩ := Reaches.exists_of_replay (step ordinary) (GivesFree ordinary)
    samplePair_started
    [.fillLoot 0 (sampleFilling .groupLoot), .groupLoot 0 sampleLooters,
      .lootRoll 1 1 ROLL_NEED sampleEvaluation, .lootRoll 2 1 ROLL_GREED sampleEvaluation,
      .storeLootItem 0 2 (member .groupLoot) 1]
    (by decide +kernel)
    (fun w => decide ((w.loots 0).taken = [⟨.item 0, 1, false⟩, ⟨.quest 0, 2, false⟩]))
    (by decide +kernel)
  exact ⟨w, hw, of_decide_eq_true h, once_of_reaches hw 0⟩

/-- The quest item that is on the lists of players 1 and 2 is handed out to both. -/
theorem taken_twice : ¬ ∀ proto w, Reaches (step proto) anyStep Started w →
    ∀ id, (w.loots id).taken.Pairwise Taken.Apart := by
  intro hall
  obtain ⟨w, hw, h⟩ := Reaches.exists_of_replay (step ordinary) anyStep samplePair_started
    [.fillLoot 0 (sampleFilling .groupLoot), .storeLootItem 0 1 (member .groupLoot) 1,
      .storeLootItem 0 2 (member .groupLoot) 1]
    (replayOk_anyStep ..)
    (fun w => decide ((w.loots 0).taken = [⟨.quest 0, 1, false⟩, ⟨.quest 0, 2, false⟩]))
    (by decide +kernel)
  have hpair := hall ordinary w hw 0
  rw [of_decide_eq_true h, List.pairwise_pair] at hpair
  exact absurd (hpair rfl).1 (by decide)

end Samples

end World

end HysteriaCore.Looting

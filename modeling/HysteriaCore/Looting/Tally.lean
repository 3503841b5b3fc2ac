import HysteriaCore.Looting.Rolls
import HysteriaCore.Lib.Counting

/-!
# The totals of a roll

While a roll is live its four counters say how many have voted what, as long as nobody votes
twice: `CountRollVote` counts a vote without taking back the one before it.
-/

namespace HysteriaCore.Looting
open Lib

theorem toNat_succ {x : UInt8} (h : x.toNat < 255) : (x + 1).toNat = x.toNat + 1 := by
  rw [UInt8.toNat_add]
  exact Nat.mod_eq_of_lt (Nat.succ_lt_succ h)

theorem toNat_pred {x : UInt8} (h : 0 < x.toNat) : (x - 1).toNat + 1 = x.toNat := by
  have hle : (1 : UInt8) ≤ x := UInt8.le_iff_toNat_le.mpr h
  rw [UInt8.toNat_sub_of_le _ _ hle]
  exact Nat.sub_add_cancel h

variable {looters : List Looter}

namespace Roll

def votes (r : Roll) (p : RollVote → Bool) : ℕ := r.playerVote.rows.countP fun v => p v.vote

def forNeed (v : RollVote) : Bool := v = .need
def forGreed (v : RollVote) : Bool := v = .greed || v = .disenchant
def forPass (v : RollVote) : Bool := v = .pass
def isValid (v : RollVote) : Bool := v ≠ .notValid
def isCast (v : RollVote) : Bool := forPass v || forNeed v || forGreed v

structure Tally (r : Roll) : Prop where
  pass : r.totalPass.toNat = r.votes forPass
  need : r.totalNeed.toNat = r.votes forNeed
  greed : r.totalGreed.toNat = r.votes forGreed
  rolling : r.totalPlayersRolling.toNat = r.votes isValid

def AllVoted (r : Roll) : Prop := ∀ v ∈ r.playerVote, isCast v.vote = true

theorem votes_le (r : Roll) (p : RollVote → Bool) : r.votes p ≤ r.playerVote.size :=
  List.countP_le_length

variable {r : Roll}

variable {guid : ℕ} {v : PlayerVote}

theorem votes_setVote (hv : r.playerVote.find? guid = some v)
    (vote : RollVote) (p : RollVote → Bool) :
    (r.setVote guid vote).votes p + (if p v.vote then 1 else 0) =
      r.votes p + (if p vote then 1 else 0) := by
  obtain ⟨hmem, rfl⟩ := (r.playerVote.find?_eq_some_iff _ _).mp hv
  have hsum := r.playerVote.sum_adjust (fun v => if p v.vote then 1 else 0) hmem
    ({ · with vote := vote }) fun _ => rfl
  rw [votes, votes, countP_eq_sum, countP_eq_sum]
  exact hsum

theorem votes_leave (hv : v ∈ r.playerVote) (p : RollVote → Bool) :
    (r.leave v).votes p + (if p v.vote then 1 else 0) = r.votes p := by
  have hsum := r.playerVote.sum_erase (fun v => if p v.vote then 1 else 0) hv
  rw [votes, votes, countP_eq_sum, countP_eq_sum]
  exact hsum

theorem votes_enter (hnew : r.playerVote.find? guid = none) (passes : Bool)
    (p : RollVote → Bool) : (r.enter guid passes).votes p =
      r.votes p + if p (if passes then .pass else .notEmitedYet) then 1 else 0 := by
  have hsum := r.playerVote.sum_put_of_new (fun v => if p v.vote then 1 else 0)
    (a := ⟨guid, if passes then .pass else .notEmitedYet⟩)
    ((r.playerVote.find?_eq_none_iff guid).mp hnew)
  rw [votes, votes, countP_eq_sum, countP_eq_sum]
  exact hsum

theorem size_setVote (guid : ℕ) (vote : RollVote) :
    (r.setVote guid vote).playerVote.size = r.playerVote.size :=
  List.length_map ..

/-- The counters are right, and there are too few players for them to overflow. -/
structure Sound (r : Roll) : Prop where
  tally : r.Tally
  size : r.playerVote.size ≤ MAXRAIDSIZE
  valid : r.votes isValid = r.playerVote.size

theorem Sound.small (h : r.Sound) (p : RollVote → Bool) : r.votes p < 255 :=
  lt_of_le_of_lt ((r.votes_le p).trans h.size) (by decide)

theorem Sound.new (itemGUID : ℕ) (item : LootItem) : (Roll.new itemGUID item).Sound :=
  ⟨⟨rfl, rfl, rfl, rfl⟩, Nat.zero_le _, rfl⟩

theorem Tally.enter (h : r.Tally) (hsize : r.playerVote.size < MAXRAIDSIZE)
    (hnew : r.playerVote.find? guid = none) (passes : Bool) : (r.enter guid passes).Tally := by
  have hsmall : ∀ p, r.votes p < 255 := fun p => lt_of_le_of_lt (r.votes_le p) (hsize.trans (by decide))
  have hvotes := votes_enter hnew passes
  have hp := hsmall forPass
  have hr := hsmall isValid
  rw [← h.pass] at hp
  rw [← h.rolling] at hr
  refine ⟨?_, ?_, ?_, ?_⟩
  · rw [hvotes, ← h.pass]
    cases passes with
    | true => exact toNat_succ hp
    | false => rfl
  · rw [hvotes, ← h.need]
    cases passes <;> rfl
  · rw [hvotes, ← h.greed]
    cases passes <;> rfl
  · rw [hvotes, ← h.rolling]
    cases passes <;> exact toNat_succ hr

theorem Sound.cast (h : r.Sound)
    (hv : r.playerVote.find? guid = some v) (hyet : v.vote = .notEmitedYet) {x : RollVote}
    (hvalid : isValid x = true) {r' : Roll}
    (hset : r'.playerVote = (r.setVote guid x).playerVote)
    (hp : r'.totalPass.toNat = r.totalPass.toNat + if forPass x then 1 else 0)
    (hn : r'.totalNeed.toNat = r.totalNeed.toNat + if forNeed x then 1 else 0)
    (hg : r'.totalGreed.toNat = r.totalGreed.toNat + if forGreed x then 1 else 0)
    (hr : r'.totalPlayersRolling = r.totalPlayersRolling) : r'.Sound := by
  have hvotes : ∀ p, r'.votes p + (if p v.vote then 1 else 0) = r.votes p + if p x then 1 else 0 := by
    intro p
    rw [← votes_setVote hv x p, votes, votes, hset]
  simp only [hyet] at hvotes
  have hsame := hvotes isValid
  rw [hvalid] at hsame
  refine ⟨⟨?_, ?_, ?_, ?_⟩, ?_, ?_⟩
  · rw [hp, h.tally.pass]
    exact (hvotes forPass).symm
  · rw [hn, h.tally.need]
    exact (hvotes forNeed).symm
  · rw [hg, h.tally.greed]
    exact (hvotes forGreed).symm
  · rw [hr, h.tally.rolling]
    exact (Nat.succ.inj hsame).symm
  · rw [hset, size_setVote]
    exact h.size
  · rw [hset, size_setVote, ← h.valid]
    exact Nat.succ.inj hsame

theorem Sound.choose (h : r.Sound) {guid choice : ℕ}
    (hfirst : choice < MAX_ROLL_TYPE → ∃ v, r.playerVote.find? guid = some v ∧ v.vote = .notEmitedYet) :
    (r.choose guid choice).Sound := by
  have hp := h.tally.pass ▸ h.small forPass
  have hn := h.tally.need ▸ h.small forNeed
  have hg := h.tally.greed ▸ h.small forGreed
  rw [Roll.choose]
  by_cases hlow : choice < MAX_ROLL_TYPE
  · obtain ⟨v, hv, hyet⟩ := hfirst hlow
    split_ifs
    · exact h.cast hv hyet (x := .pass) rfl rfl (toNat_succ hp) rfl rfl rfl
    · exact h.cast hv hyet (x := .need) rfl rfl rfl (toNat_succ hn) rfl rfl
    · exact h.cast hv hyet (x := .greed) rfl rfl rfl rfl (toNat_succ hg) rfl
    · exact h.cast hv hyet (x := .disenchant) rfl rfl rfl rfl (toNat_succ hg) rfl
    · exact h
  · have hne : ∀ n < MAX_ROLL_TYPE, choice ≠ n := fun n hn hc => hlow (hc ▸ hn)
    rw [if_neg (hne _ (by decide)), if_neg (hne _ (by decide)), if_neg (hne _ (by decide)),
      if_neg (hne _ (by decide))]
    exact h

theorem toNat_leave {x : UInt8} {m n : ℕ} {b : Bool} {c : Prop} [Decidable c] (hc : c ↔ b = true)
    (hx : n ≤ x.toNat) (hn : m + (if b then 1 else 0) = n) : (if c then x - 1 else x).toNat + n = x.toNat + m := by
  by_cases hcase : c
  · rw [if_pos (hc.mp hcase)] at hn
    rw [if_pos hcase]
    have hpred := toNat_pred (x := x) (by omega)
    omega
  · rw [if_neg fun h => hcase (hc.mpr h)] at hn
    rw [if_neg hcase]
    omega

theorem eq_leave {x : UInt8} {m n : ℕ} {b : Bool} {c : Prop} [Decidable c] (hc : c ↔ b = true)
    (hx : x.toNat = n) (hn : m + (if b then 1 else 0) = n) : (if c then x - 1 else x).toNat = m := by
  have hleave := toNat_leave hc hx.ge hn
  omega

theorem Sound.leave (h : r.Sound) (hv : v ∈ r.playerVote) : (r.leave v).Sound := by
  have hvotes := votes_leave hv
  have hsize : (r.leave v).playerVote.size + 1 = r.playerVote.size := r.playerVote.size_erase_of_mem hv
  have hle := h.size
  refine ⟨⟨?_, ?_, ?_, ?_⟩, by omega, ?_⟩
  · exact eq_leave (by simp [forPass]) h.tally.pass (hvotes forPass)
  · exact eq_leave (by simp [forNeed]) h.tally.need (hvotes forNeed)
  · exact eq_leave (by simp [forGreed]) h.tally.greed (hvotes forGreed)
  · exact eq_leave (by simp [isValid]) h.tally.rolling (hvotes isValid)
  · have hall := List.countP_eq_length.mp h.valid v hv
    have hsum := hvotes isValid
    rw [hall, if_pos rfl, h.valid] at hsum
    omega

theorem Sound.allVoted (h : r.Sound) (hall : r.complete = true) : r.AllVoted := by
  have hle := of_decide_eq_true hall
  rw [h.tally.pass, h.tally.need, h.tally.greed, h.tally.rolling, h.valid] at hle
  -- the three kinds exclude each other, so together they are all the votes
  have hsplit : r.votes isCast = r.votes (fun v => forPass v || forNeed v) + r.votes forGreed := by
    refine countP_split fun v _ => ⟨rfl, ?_⟩
    cases v.vote <;> rfl
  have hsplit' : r.votes (fun v => forPass v || forNeed v) = r.votes forPass + r.votes forNeed := by
    refine countP_split fun v _ => ⟨rfl, ?_⟩
    cases v.vote <;> rfl
  have hcast := r.votes_le isCast
  exact List.countP_eq_length.mp (show r.votes isCast = r.playerVote.size by omega)

theorem Sound.enter (h : r.Sound) (hsize : r.playerVote.size < MAXRAIDSIZE)
    (hnew : r.playerVote.find? guid = none) (passes : Bool) : (r.enter guid passes).Sound := by
  have hput : (r.enter guid passes).playerVote.size = r.playerVote.size + 1 :=
    r.playerVote.size_put_of_new ((r.playerVote.find?_eq_none_iff guid).mp hnew)
  refine ⟨h.tally.enter hsize hnew passes, by omega, ?_⟩
  rw [votes_enter hnew, h.valid, hput]
  cases passes <;> rfl

theorem Sound.enterAll (proto : ℕ → Option ItemTemplate) (item : LootItem) (autoPass : Bool)
    (h : r.Sound) (hdistinct : (looters.map Looter.guid).Nodup)
    (hnew : ∀ l ∈ looters, r.playerVote.find? l.guid = none)
    (hsize : r.playerVote.size + looters.length ≤ MAXRAIDSIZE) :
    (World.enterAll proto looters item autoPass r).Sound := by
  induction looters generalizing r with
  | nil => exact h
  | cons l looters ih =>
    rw [List.map_cons, List.nodup_cons] at hdistinct
    rw [List.length_cons] at hsize
    have hrest := fun x hx => hnew x (List.mem_cons_of_mem _ hx)
    rw [World.enterAll, List.foldl_cons]
    by_cases hin : (l.isAtGroupRewardDistance && item.allowedForPlayer proto l.answers) = true
    · rw [if_pos hin]
      have hput : (r.enter l.guid (autoPass && l.passOnGroupLoot)).playerVote.size =
          r.playerVote.size + 1 :=
        r.playerVote.size_put_of_new
          ((r.playerVote.find?_eq_none_iff _).mp (hnew l List.mem_cons_self))
      refine ih (h.enter (by omega) (hnew l List.mem_cons_self) _) hdistinct.2 (fun x hx => ?_)
        (by omega)
      have hne : l.guid ≠ x.guid := fun heq => hdistinct.1 (heq ▸ List.mem_map_of_mem hx)
      show (r.playerVote.put _).find? x.guid = none
      rw [KeyedList.find?_put, if_neg hne]
      exact hrest x hx
    · rw [if_neg hin]
      exact ih h hdistinct.2 hrest (by omega)

end Roll

namespace World

/-- The rolls of a group are sound, and what was counted early had all its votes. -/
structure RollsSound (w : World) : Prop where
  members : w.members.length ≤ MAXRAIDSIZE
  rolls : ∀ r ∈ w.rolls, r.Sound
  evaluated : ∀ r ∈ w.evaluated, r.AllVoted

variable {proto : ℕ → Option ItemTemplate} {w : World}

theorem RollsSound.setLoot (h : w.RollsSound) (id : ℕ) (loot : Loot) : (w.setLoot id loot).RollsSound :=
  ⟨h.members, h.rolls, h.evaluated⟩

theorem RollsSound.countTheRoll (h : w.RollsSound) (r : Roll) (e : Evaluation) :
    (w.countTheRoll r e).RollsSound := by
  have herase : RollsSound { w with rolls := w.rolls.erase r.itemGUID } :=
    ⟨h.members, fun r' hr' => h.rolls r' ((w.rolls.mem_erase _ _).mp hr').1, h.evaluated⟩
  rw [World.countTheRoll]
  cases r.loot with
  | none => exact herase
  | some id => exact herase.setLoot id _

theorem RollsSound.adjust (h : w.RollsSound) {itemGUID : ℕ} {r : Roll}
    (hr : w.rolls.find? itemGUID = some r) (f : Roll → Roll) (hf : ∀ r, (f r).itemGUID = r.itemGUID)
    (hsound : (f r).Sound) : RollsSound { w with rolls := w.rolls.adjust itemGUID f hf } := by
  refine ⟨h.members, fun r' hr' => ?_, h.evaluated⟩
  obtain ⟨x, hx, rfl⟩ := (w.rolls.mem_adjust itemGUID f hf r').mp hr'
  by_cases hkey : x.itemGUID = itemGUID
  · have heq : w.rolls.find? itemGUID = some x := (w.rolls.find?_eq_some_iff _ _).mpr ⟨hx, hkey⟩
    rw [if_pos hkey, Option.some.inj (heq.symm.trans hr)]
    exact hsound
  · rw [if_neg hkey]
    exact h.rolls x hx

/-- A call of `CountRollVote` that comes to the switch votes for the first time. -/
def FirstVote (w : World) (guid itemGUID choice : ℕ) : Prop :=
  choice < MAX_ROLL_TYPE → ∀ r ∈ w.rollFor guid itemGUID choice,
    ∀ v ∈ r.playerVote.find? guid, v.vote = .notEmitedYet

variable {guid itemGUID choice : ℕ}

theorem find?_of_rollFor {r : Roll}
    (h : w.rollFor guid itemGUID choice = some r) : w.rolls.find? itemGUID = some r ∧
      (choice < MAX_ROLL_TYPE → ∃ v, r.playerVote.find? guid = some v) := by
  obtain ⟨hget, htest⟩ := Option.filter_eq_some_iff.mp h
  obtain ⟨hfind, -⟩ := Option.filter_eq_some_iff.mp hget
  refine ⟨hfind, fun hlow => Option.ne_none_iff_exists'.mp fun hnone => ?_⟩
  simp [hlow, hnone] at htest

theorem RollsSound.countRollVote (h : w.RollsSound)
    (hok : w.FirstVote guid itemGUID choice) (e : Evaluation) :
    (w.countRollVote guid itemGUID choice e).RollsSound := by
  rw [World.countRollVote]
  cases hr : w.rollFor guid itemGUID choice with
  | none => exact h
  | some r =>
    obtain ⟨hfind, hentry⟩ := find?_of_rollFor hr
    have hsound : (r.choose guid choice).Sound := by
      refine (h.rolls r ((w.rolls.find?_eq_some_iff _ _).mp hfind).1).choose fun hlow => ?_
      obtain ⟨v, hv⟩ := hentry hlow
      exact ⟨v, hv, hok hlow r hr v hv⟩
    have hnew := h.adjust hfind (Roll.choose · guid choice) (Roll.choose_itemGUID · _ _) hsound
    dsimp only
    split
    · rename_i hall
      refine RollsSound.countTheRoll (w := { w with
        rolls := w.rolls.adjust itemGUID (Roll.choose · guid choice) (Roll.choose_itemGUID · _ _)
        evaluated := w.evaluated ++ [r.choose guid choice] }) ?_ _ e
      refine ⟨hnew.members, hnew.rolls, fun r' hr' => ?_⟩
      rcases List.mem_append.mp hr' with hr' | hr'
      · exact hnew.evaluated r' hr'
      · rw [List.mem_singleton.mp hr']
        exact hsound.allVoted hall
    · exact hnew

theorem RollsSound.leaveRoll (h : w.RollsSound) (guid : ℕ) (e : ℕ → Evaluation) (itemGUID : ℕ) :
    (w.leaveRoll guid e itemGUID).RollsSound := by
  rw [World.leaveRoll]
  cases hr : w.rolls.find? itemGUID with
  | none => exact h
  | some r =>
    dsimp only
    cases hv : r.playerVote.find? guid with
    | none => exact h
    | some v =>
      have hleft := (h.rolls r ((w.rolls.find?_eq_some_iff _ _).mp hr).1).leave
        ((r.playerVote.find?_eq_some_iff _ _).mp hv).1
      exact (h.adjust hr (Roll.leave · v) (fun _ => rfl) hleft).countRollVote
        (fun hlow => absurd hlow (Nat.lt_irrefl _)) _

theorem RollsSound.removeMember (h : w.RollsSound) (guid : ℕ) (e : ℕ → Evaluation) :
    (w.removeMember guid e).RollsSound := by
  rw [World.removeMember]
  by_cases hmany : (if w.smallGroup then 1 else 2) < w.members.length
  · rw [if_pos hmany]
    have hrolls : RollsSound ((w.rolls.rows.map Roll.itemGUID).foldl (World.leaveRoll guid e) w) :=
      foldl_invariant (fun w itemGUID (h : w.RollsSound) => h.leaveRoll guid e itemGUID) _ h
    exact ⟨List.length_erase_le.trans hrolls.members, hrolls.rolls, hrolls.evaluated⟩
  · rw [if_neg hmany]
    exact ⟨Nat.zero_le _, fun r hr => absurd hr List.not_mem_nil, h.evaluated⟩

theorem RollsSound.endRoll (h : w.RollsSound) (id : ℕ) (e : ℕ → Evaluation) :
    (w.endRoll id e).RollsSound := by
  refine foldl_invariant (fun w r (h : w.RollsSound) => ?_) _ h
  rw [endRollOf]
  split
  · exact h.countTheRoll r _
  · exact h

theorem RollsSound.startRoll (h : w.RollsSound) (id itemSlot : ℕ) (p : Place) (item : LootItem)
    (autoPass : Bool) (hdistinct : (looters.map Looter.guid).Nodup)
    (hsize : looters.length ≤ MAXRAIDSIZE) :
    (w.startRoll proto id itemSlot p item autoPass looters).RollsSound := by
  have hsound := (Roll.Sound.new w.nextItemGuid item).enterAll proto item autoPass hdistinct
    (fun _ _ => rfl) (by simpa [Roll.new, KeyedList.size, KeyedList.empty] using hsize)
  rw [World.startRoll]
  dsimp only
  split
  · refine ⟨h.members, fun r hr => ?_, h.evaluated⟩
    rcases (w.rolls.mem_put _ _).mp hr with rfl | ⟨hr, -⟩
    · exact ⟨⟨hsound.tally.pass, hsound.tally.need, hsound.tally.greed, hsound.tally.rolling⟩,
        hsound.size, hsound.valid⟩
    · exact h.rolls r hr
  · exact ⟨h.members, h.rolls, h.evaluated⟩

theorem RollsSound.groupLoot (h : w.RollsSound) (id : ℕ)
    (hdistinct : (looters.map Looter.guid).Nodup) (hsize : looters.length ≤ MAXRAIDSIZE) :
    (w.groupLoot proto id looters).RollsSound := by
  refine foldl_invariant (fun w i (h : w.RollsSound) => ?_) _
    (foldl_invariant (fun w i (h : w.RollsSound) => ?_) _ h)
  · rw [rollQuestItem]
    cases (w.loots id).questItems[i]? with
    | none => exact h
    | some item =>
      dsimp only
      split
      · exact h
      · exact h.startRoll id _ _ item false hdistinct hsize
  · rw [rollItem]
    cases (w.loots id).items[i]? with
    | none => exact h
    | some item =>
      dsimp only
      split
      · exact h
      · cases proto item.itemid with
        | none => exact h
        | some p =>
          dsimp only
          split
          · exact h.startRoll id _ _ item true hdistinct hsize
          · exact h.setLoot id _

def VotesOnce (w : World) : Event → Prop
  | .lootRoll guid itemGUID rollType _ => w.FirstVote guid itemGUID rollType
  | _ => True

theorem length_le_of_members {looters : KeyedList Looter.guid}
    (h : ∀ l ∈ looters.rows, l.guid ∈ w.members) : looters.rows.length ≤ w.members.length := by
  rw [← List.length_map Looter.guid]
  refine (List.subperm_of_subset looters.distinct fun guid hguid => ?_).length_le
  obtain ⟨l, hl, rfl⟩ := List.mem_map.mp hguid
  exact h l hl

theorem RollsSound.step {t : World} (h : w.RollsSound) {e : Event} (hok : w.VotesOnce e)
    (hs : w.step proto e = some t) : t.RollsSound := by
  cases e with
  | fillLoot id f =>
    cases hs
    exact h.setLoot id _
  | fillNotNormalLootFor id v =>
    cases hs
    exact h.setLoot id _
  | groupLoot id looters =>
    obtain ⟨hin, rfl⟩ := guarded_eq_some.mp hs
    exact h.groupLoot id looters.distinct ((length_le_of_members hin).trans h.members)
  | needBeforeGreed id looters =>
    obtain ⟨hin, rfl⟩ := guarded_eq_some.mp hs
    exact h.groupLoot id looters.distinct ((length_le_of_members hin).trans h.members)
  | masterLoot id =>
    cases hs
    exact h.setLoot id _
  | storeLootItem id guid a lootSlot =>
    cases hs
    exact h.setLoot id _
  | masterGive id giver target a slotid =>
    obtain ⟨-, rfl⟩ := guarded_eq_some.mp hs
    exact h.setLoot id _
  | lootRoll guid itemGUID rollType e =>
    obtain ⟨-, rfl⟩ := guarded_eq_some.mp hs
    exact h.countRollVote hok e
  | addMember guid =>
    obtain ⟨hroom, rfl⟩ := guarded_eq_some.mp hs
    exact ⟨Nat.succ_le_of_lt hroom.2, h.rolls, h.evaluated⟩
  | removeMember guid e =>
    cases hs
    exact h.removeMember guid e
  | disband =>
    cases hs
    exact ⟨Nat.zero_le _, fun r hr => absurd hr (List.not_mem_nil), h.evaluated⟩
  | setLootMethod group =>
    cases hs
    exact ⟨h.members, h.rolls, h.evaluated⟩
  | endRoll id e =>
    cases hs
    exact h.endRoll id e
  | clear id =>
    cases hs
    refine ⟨h.members, fun r hr => ?_, h.evaluated⟩
    obtain ⟨x, hx, rfl⟩ := List.mem_map.mp hr
    have hsound := h.rolls x hx
    split
    · exact ⟨⟨hsound.tally.pass, hsound.tally.need, hsound.tally.greed, hsound.tally.rolling⟩,
        hsound.size, hsound.valid⟩
    · exact hsound

/-- The counters of live rolls say how the votes are, and no roll was counted before its timer
without a vote of each of its players. -/
def Tallied (w : World) : Prop := (∀ r ∈ w.rolls, r.Tally) ∧ ∀ r ∈ w.evaluated, r.AllVoted

/-- So it is in every state of every run in which nobody votes twice. -/
theorem tallied_of_reaches (h : Reaches (step proto) VotesOnce Started w) : w.Tallied := by
  have hsound : w.RollsSound := by
    refine h.invariant (fun w hw => ?_) fun w e t hw hok hs => hw.step hok hs
    obtain ⟨hrolls, hevaluated, hsize, -⟩ := hw
    refine ⟨hsize, fun r hr => ?_, fun r hr => ?_⟩
    · rw [hrolls] at hr
      exact absurd hr List.not_mem_nil
    · rw [hevaluated] at hr
      exact absurd hr List.not_mem_nil
  exact ⟨fun r hr => (hsound.rolls r hr).tally, hsound.evaluated⟩

section Samples

instance (w : World) (guid itemGUID choice : ℕ) : Decidable (w.FirstVote guid itemGUID choice) :=
  inferInstanceAs (Decidable (_ → ∀ r ∈ _, ∀ v ∈ _, _))

instance (w : World) : ∀ e, Decidable (w.VotesOnce e)
  | .lootRoll guid itemGUID rollType _ =>
    inferInstanceAs (Decidable (w.FirstVote guid itemGUID rollType))
  | .fillLoot .. | .fillNotNormalLootFor .. | .groupLoot .. | .needBeforeGreed .. | .masterLoot .. |
    .storeLootItem .. | .masterGive .. | .addMember .. | .removeMember .. | .disband |
    .setLootMethod .. | .endRoll .. | .clear .. => isTrue trivial

/-- Player 1 votes for need and player 2 leaves: the roll is counted with one vote of one. -/
theorem tallied_of_reaches_counted : ∃ w, Reaches (step ordinary) VotesOnce Started w ∧
    w.evaluated.length = 1 ∧ Tallied w := by
  obtain ⟨w, hw, h⟩ := Reaches.exists_of_replay (step ordinary) VotesOnce samplePair_started
    [.fillLoot 0 (sampleFilling .groupLoot), .addMember 3, .groupLoot 0 sampleLooters,
      .lootRoll 1 1 ROLL_NEED sampleEvaluation, .removeMember 2 fun _ => sampleEvaluation]
    (by decide +kernel) (fun w => decide (w.evaluated.length = 1)) (by decide +kernel)
  exact ⟨w, hw, of_decide_eq_true h, tallied_of_reaches hw⟩

theorem passes_twice : ¬ ∀ proto w, Reaches (step proto) anyStep Started w → w.Tallied := by
  intro hall
  obtain ⟨w, hw, h⟩ := Reaches.exists_of_replay (step ordinary) anyStep samplePair_started
    [.fillLoot 0 (sampleFilling .groupLoot), .groupLoot 0 sampleLooters,
      .lootRoll 1 1 ROLL_PASS sampleEvaluation, .lootRoll 1 1 ROLL_PASS sampleEvaluation]
    (replayOk_anyStep ..)
    (fun w => w.evaluated.any fun r => r.playerVote.rows.any fun v => !Roll.isCast v.vote)
    (by decide +kernel)
  obtain ⟨r, hr, hv⟩ := List.any_eq_true.mp h
  obtain ⟨v, hv, hno⟩ := List.any_eq_true.mp hv
  rw [(hall ordinary w hw).2 r hr v hv] at hno
  exact absurd hno (by decide)

end Samples

end World

end HysteriaCore.Looting

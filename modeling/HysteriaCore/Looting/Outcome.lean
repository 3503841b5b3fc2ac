import HysteriaCore.Looting.Tally

/-!
# The outcome of a roll (Group::CountTheRoll, Group::EndRoll)

The present voters for need compete, else the present voters for greed and disenchanting. The
winner's inventory is told what to store; `EndRoll` goes on until no roll of the loot is left.
-/

namespace HysteriaCore.Looting
open Lib

/-- What the branch of the winner calls: `StoreNewItem`, or `AutoStoreLoot` from
`LootTemplates_Disenchant`. -/
inductive Gain where
  | storeNewItem (guid itemid count : ℕ)
  | autoStoreLoot (guid disenchantID : ℕ)
  deriving DecidableEq

def Evaluation.urand (e : Evaluation) (guid : ℕ) : ℕ := e.draw guid % 100 + 1

def Loot.awardGains (loot : Loot) (r : Roll) (guid : ℕ) (e : Evaluation) : List Gain :=
  match loot.entry (loot.placeOf r.itemSlot) with
  | none => []
  | some item =>
    if e.canStoreNewItem guid r.itemid item.count = EQUIP_ERR_OK then
      [.storeNewItem guid r.itemid item.count]
    else []

namespace Roll

def needGains (e : Evaluation) (s : Roll × Loot) : List Gain :=
  if s.1.totalNeed ≠ 0 ∧ s.1.playerVote.rows ≠ [] then
    match (s.1.contest (· = .need) e).winner with
    | some v => s.2.awardGains s.1 v.guid e
    | none => []
  else []

def greedGains (disenchantID : ℕ → ℕ) (e : Evaluation) (s : Roll × Loot) : List Gain :=
  if s.1.totalNeed = 0 ∧ s.1.totalGreed ≠ 0 ∧ s.1.playerVote.rows ≠ [] then
    match (s.1.contest (fun v => v = .greed || v = .disenchant) e).winner with
    | some v =>
      if v.vote = .greed then s.2.awardGains s.1 v.guid e
      else [.autoStoreLoot v.guid (disenchantID s.1.itemid)]
    | none => []
  else []

def gains (disenchantID : ℕ → ℕ) (e : Evaluation) (r : Roll) (loot : Loot) : List Gain :=
  needGains e (r, loot) ++ greedGains disenchantID e (countNeed e (r, loot))

/-! ### The loop over the votes -/

structure Asks (r : Roll) (p : RollVote → Bool) (e : Evaluation) (v : PlayerVote) : Prop where
  mem : v ∈ r.playerVote
  vote : p v.vote = true
  found : e.finds v.guid = true

/-- The first of those of a class who rolled the greatest number. -/
structure Wins (r : Roll) (p : RollVote → Bool) (e : Evaluation) (v : PlayerVote) : Prop where
  asks : r.Asks p e v
  greatest : ∀ v', r.Asks p e v' → e.urand v'.guid ≤ e.urand v.guid
  first : ∀ v', r.Asks p e v' → e.urand v'.guid = e.urand v.guid → v.guid ≤ v'.guid

/-- What holds of the loop's variables after a part of the votes. -/
structure Led (p : RollVote → Bool) (e : Evaluation) (l : List PlayerVote) (c : Contest) : Prop where
  gone : c.gone = UInt8.ofNat (l.countP fun v => p v.vote && !e.finds v.guid)
  bound : ∀ v ∈ l, p v.vote = true → e.finds v.guid = true → e.urand v.guid ≤ c.maxresul
  nobody : c.winner = none → c.maxresul = 0
  leader : ∀ v, c.winner = some v → v ∈ l ∧ p v.vote = true ∧ e.finds v.guid = true ∧
    e.urand v.guid = c.maxresul ∧ ∀ v' ∈ l, p v'.vote = true → e.finds v'.guid = true →
      e.urand v'.guid = c.maxresul → v.guid ≤ v'.guid

def contestStep (p : RollVote → Bool) (e : Evaluation) (c : Contest) (v : PlayerVote) : Contest :=
  if !p v.vote then c
  else if !e.finds v.guid then { c with gone := c.gone + 1 }
  else
    let randomN := e.draw v.guid % 100 + 1
    if c.maxresul < randomN then { c with maxresul := randomN, winner := some v } else c

theorem contest_eq (r : Roll) (p : RollVote → Bool) (e : Evaluation) :
    r.contest p e = r.inOrder.foldl (contestStep p e) ⟨0, 0, none⟩ := rfl

variable {p : RollVote → Bool} {e : Evaluation} {l : List PlayerVote} {c : Contest} {x : PlayerVote}

theorem Led.skip (h : Led p e l c) (gone : UInt8) (hno : p x.vote = true → e.finds x.guid = false)
    (hgone : gone = UInt8.ofNat ((l ++ [x]).countP fun v => p v.vote && !e.finds v.guid)) :
    Led p e (l ++ [x]) { c with gone := gone } := by
  have hnew : ∀ v ∈ l ++ [x], p v.vote = true → e.finds v.guid = true → v ∈ l := by
    intro v hv hp hf
    rcases List.mem_append.mp hv with hv | hv
    · exact hv
    · rw [List.mem_singleton.mp hv] at hp hf
      rw [hno hp] at hf
      cases hf
  refine ⟨hgone, fun v hv hp hf => h.bound v (hnew v hv hp hf) hp hf, h.nobody, fun v hv => ?_⟩
  obtain ⟨hmem, hp, hf, hmax, hfirst⟩ := h.leader v hv
  exact ⟨List.mem_append_left _ hmem, hp, hf, hmax,
    fun v' hv' hp' hf' => hfirst v' (hnew v' hv' hp' hf') hp' hf'⟩

theorem Led.step (h : Led p e l c) (hlast : ∀ v ∈ l, v.guid ≤ x.guid) :
    Led p e (l ++ [x]) (contestStep p e c x) := by
  have hcount : (l ++ [x]).countP (fun v => p v.vote && !e.finds v.guid) =
      l.countP (fun v => p v.vote && !e.finds v.guid) + if p x.vote && !e.finds x.guid then 1 else 0 := by
    rw [List.countP_append, List.countP_singleton]
  rw [contestStep]
  by_cases hp : p x.vote = true
  · rw [if_neg (by simp [hp])]
    by_cases hf : e.finds x.guid = true
    · rw [if_neg (by simp [hf])]
      rw [hf, Bool.not_true, Bool.and_false, if_neg Bool.false_ne_true, Nat.add_zero] at hcount
      by_cases hlt : c.maxresul < e.draw x.guid % 100 + 1
      · -- a greater number takes the lead
        refine (if_pos hlt).symm ▸ ⟨by rw [hcount]; exact h.gone, fun v hv hvp hvf => ?_, ?_, ?_⟩
        · rcases List.mem_append.mp hv with hv | hv
          · exact (h.bound v hv hvp hvf).trans hlt.le
          · rw [List.mem_singleton.mp hv]
            exact le_rfl
        · intro hnone
          cases hnone
        · intro v hv
          obtain rfl := Option.some.inj hv
          refine ⟨List.mem_append_right _ (List.mem_singleton_self _), hp, hf, rfl, fun v' hv' hp' hf' heq => ?_⟩
          rcases List.mem_append.mp hv' with hv' | hv'
          · have hle := h.bound v' hv' hp' hf'
            have heq' : e.urand v'.guid = e.draw x.guid % 100 + 1 := heq
            omega
          · rw [List.mem_singleton.mp hv']
      · -- the leader stays, being before the voter in the map
        refine (if_neg hlt).symm ▸ ⟨by rw [hcount]; exact h.gone, fun v hv hvp hvf => ?_, h.nobody, fun v hv => ?_⟩
        · rcases List.mem_append.mp hv with hv | hv
          · exact h.bound v hv hvp hvf
          · rw [List.mem_singleton.mp hv]
            exact Nat.le_of_not_lt hlt
        · obtain ⟨hmem, hvp, hvf, hmax, hfirst⟩ := h.leader v hv
          refine ⟨List.mem_append_left _ hmem, hvp, hvf, hmax, fun v' hv' hp' hf' heq => ?_⟩
          rcases List.mem_append.mp hv' with hv' | hv'
          · exact hfirst v' hv' hp' hf' heq
          · rw [List.mem_singleton.mp hv']
            exact hlast v hmem
    · rw [if_pos (by simp [hf])]
      refine h.skip _ (fun _ => by simpa using hf) ?_
      rw [hcount, if_pos (by simp [hp, hf]), h.gone]
      exact (UInt8.ofNat_add ..).symm
  · rw [if_pos (by simp [hp])]
    refine h.skip c.gone (fun hyes => absurd hyes hp) ?_
    rw [hcount, if_neg (by simp [hp]), h.gone]
    rfl

theorem led_foldl (hl : l.Pairwise fun v w => v.guid ≤ w.guid) :
    Led p e l (l.foldl (contestStep p e) ⟨0, 0, none⟩) := by
  induction l using List.reverseRecOn with
  | nil =>
    exact ⟨rfl, fun _ hv => absurd hv List.not_mem_nil, fun _ => rfl, fun _ hv => by cases hv⟩
  | append_singleton l x ih =>
    obtain ⟨hl, -, hlast⟩ := List.pairwise_append.mp hl
    rw [List.foldl_append]
    exact (ih hl).step fun v hv => hlast v hv x (List.mem_singleton_self x)

variable {r : Roll} {v : PlayerVote}

theorem mem_inOrder : v ∈ r.inOrder ↔ v ∈ r.playerVote := (List.perm_insertionSort ..).mem_iff

theorem led_contest (r : Roll) (p : RollVote → Bool) (e : Evaluation) :
    Led p e r.inOrder (r.contest p e) := by
  rw [contest_eq]
  apply led_foldl
  exact List.pairwise_insertionSort (fun v w : PlayerVote => v.guid ≤ w.guid) r.playerVote.rows

theorem wins_of_contest (h : (r.contest p e).winner = some v) : r.Wins p e v := by
  have hled := led_contest r p e
  obtain ⟨hmem, hp, hf, hmax, hfirst⟩ := hled.leader v h
  refine ⟨⟨mem_inOrder.mp hmem, hp, hf⟩, fun v' hv' => ?_, fun v' hv' heq => ?_⟩
  · rw [hmax]
    exact hled.bound v' (mem_inOrder.mpr hv'.mem) hv'.vote hv'.found
  · exact hfirst v' (mem_inOrder.mpr hv'.mem) hv'.vote hv'.found (heq.trans hmax)

theorem nobody_of_contest (h : (r.contest p e).winner = none) : ¬ r.Asks p e v := by
  intro hv
  have hled := led_contest r p e
  have hle := hled.bound v (mem_inOrder.mpr hv.mem) hv.vote hv.found
  rw [hled.nobody h] at hle
  exact absurd hle (Nat.not_succ_le_zero _)

theorem total_ne_zero {total : UInt8} (htotal : total.toNat = r.votes p)
    (h : (r.contest p e).winner = some v) : total - (r.contest p e).gone ≠ 0 := by
  have hwins := (wins_of_contest h).asks
  have hlt : (r.inOrder.countP fun v => p v.vote && !e.finds v.guid) < r.inOrder.countP fun v => p v.vote := by
    have hsplit := List.countP_eq_countP_filter_add r.inOrder (fun v => p v.vote) fun v => e.finds v.guid
    have hpos : 0 < (r.inOrder.filter fun v => e.finds v.guid).countP fun v => p v.vote :=
      List.countP_pos_iff.mpr ⟨v, List.mem_filter.mpr ⟨mem_inOrder.mpr hwins.mem, hwins.found⟩, hwins.vote⟩
    rw [List.countP_filter (l := r.inOrder) (q := fun v => !e.finds v.guid)] at hsplit
    omega
  have hvotes : (r.inOrder.countP fun v => p v.vote) = total.toNat :=
    ((List.perm_insertionSort ..).countP_eq _).trans htotal.symm
  have hgone : (r.contest p e).gone.toNat = r.inOrder.countP fun v => p v.vote && !e.finds v.guid := by
    rw [(led_contest r p e).gone]
    exact UInt8.toNat_ofNat_of_lt' ((hlt.trans_le hvotes.le).trans total.toNat_lt)
  have hle : (r.contest p e).gone ≤ total := by
    rw [UInt8.le_iff_toNat_le]
    omega
  intro hzero
  have hdiff := UInt8.toNat_sub_of_le _ _ hle
  rw [hzero, UInt8.toNat_zero] at hdiff
  omega

theorem total_pos {total : UInt8} (htotal : total.toNat = r.votes p) (hv : r.Asks p e v) :
    total ≠ 0 ∧ r.playerVote.rows ≠ [] := by
  have hpos : 0 < r.votes p := List.countP_pos_iff.mpr ⟨v, hv.mem, hv.vote⟩
  refine ⟨fun hzero => ?_, List.ne_nil_of_mem hv.mem⟩
  rw [← htotal, hzero] at hpos
  exact absurd hpos (Nat.lt_irrefl 0)

/-! ### The phases -/

/-- The winner of a count: among those who need the item, else among those who are greedy. -/
def Winner (r : Roll) (e : Evaluation) (v : PlayerVote) : Prop :=
  r.Wins forNeed e v ∨ (∀ v', ¬ r.Asks forNeed e v') ∧ r.Wins forGreed e v

variable (loot : Loot) (disenchantID : ℕ → ℕ)

theorem countNeed_won (ht : r.totalNeed.toNat = r.votes forNeed)
    (h : (r.contest forNeed e).winner = some v) :
    countNeed e (r, loot) = ({ r with totalNeed := r.totalNeed - (r.contest forNeed e).gone },
        loot.award r v.guid e) ∧
      needGains e (r, loot) = loot.awardGains r v.guid e := by
  have hpos := total_pos ht (wins_of_contest h).asks
  have h' : (r.contest (· = .need) e).winner = some v := h
  refine ⟨?_, ?_⟩
  · rw [countNeed, if_pos hpos]
    simp only [h']
    rfl
  · rw [needGains, if_pos hpos]
    simp only [h']

theorem countNeed_lost (ht : r.totalNeed.toNat = r.votes forNeed)
    (h : (r.contest forNeed e).winner = none) :
    countNeed e (r, loot) = ({ r with totalNeed := 0 }, loot) ∧ needGains e (r, loot) = [] := by
  have h' : (r.contest (· = .need) e).winner = none := h
  by_cases hpos : r.totalNeed ≠ 0 ∧ r.playerVote.rows ≠ []
  · refine ⟨?_, ?_⟩
    · rw [countNeed, if_pos hpos]
      simp only [h']
    · rw [needGains, if_pos hpos]
      simp only [h']
  · have hzero : r.totalNeed = 0 := by
      by_cases hrows : r.playerVote.rows = []
      · rw [votes, hrows] at ht
        exact UInt8.toNat_inj.mp ht
      · exact not_not.mp fun hne => hpos ⟨hne, hrows⟩
    refine ⟨?_, if_neg hpos⟩
    rw [countNeed, if_neg hpos, ← hzero]

theorem countGreed_won {s : Roll × Loot} (hneed : s.1.totalNeed = 0)
    (ht : s.1.totalGreed.toNat = s.1.votes forGreed)
    (h : (s.1.contest forGreed e).winner = some v) :
    (countGreed e s).1.totalGreed ≠ 0 ∧
      (countGreed e s).2 = (if v.vote = .greed then s.2.award s.1 v.guid e
        else s.2.giveAway LootItem.markLooted (s.2.placeOf s.1.itemSlot)) ∧
      greedGains disenchantID e s = if v.vote = .greed then s.2.awardGains s.1 v.guid e
        else [.autoStoreLoot v.guid (disenchantID s.1.itemid)] := by
  have hpos := total_pos ht (wins_of_contest h).asks
  have h' : (s.1.contest (fun v => v = .greed || v = .disenchant) e).winner = some v := h
  have hleft := total_ne_zero ht h
  refine ⟨?_, ?_, ?_⟩
  · rw [countGreed, if_pos ⟨hneed, hpos⟩]
    simp only [h']
    exact hleft
  · rw [countGreed, if_pos ⟨hneed, hpos⟩]
    simp only [h']
  · rw [greedGains, if_pos ⟨hneed, hpos⟩]
    simp only [h']

theorem countGreed_lost {s : Roll × Loot} (hneed : s.1.totalNeed = 0)
    (ht : s.1.totalGreed.toNat = s.1.votes forGreed)
    (h : (s.1.contest forGreed e).winner = none) :
    (countGreed e s) = ({ s.1 with totalGreed := 0 }, s.2) ∧ greedGains disenchantID e s = [] := by
  have h' : (s.1.contest (fun v => v = .greed || v = .disenchant) e).winner = none := h
  by_cases hpos : s.1.totalNeed = 0 ∧ s.1.totalGreed ≠ 0 ∧ s.1.playerVote.rows ≠ []
  · refine ⟨?_, ?_⟩
    · rw [countGreed, if_pos hpos]
      simp only [h']
    · rw [greedGains, if_pos hpos]
      simp only [h']
  · have hzero : s.1.totalGreed = 0 := by
      by_cases hrows : s.1.playerVote.rows = []
      · rw [votes, hrows] at ht
        exact UInt8.toNat_inj.mp ht
      · exact not_not.mp fun hne => hpos ⟨hneed, hne, hrows⟩
    refine ⟨?_, if_neg hpos⟩
    rw [countGreed, if_neg hpos, ← hzero]

def count (e : Evaluation) (r : Roll) (loot : Loot) : Loot :=
  countPass (countGreed e (countNeed e (r, loot)))

theorem count_need (ht : r.Tally) (h : r.Wins forNeed e v) : ∃ v, r.Wins forNeed e v ∧
    count e r loot = loot.award r v.guid e ∧
      gains disenchantID e r loot = loot.awardGains r v.guid e := by
  cases hw : (r.contest forNeed e).winner with
  | none => exact absurd h.asks (nobody_of_contest hw)
  | some v =>
    obtain ⟨hcount, hgains⟩ := countNeed_won loot ht.need hw
    have hleft := total_ne_zero ht.need hw
    refine ⟨v, wins_of_contest hw, ?_, ?_⟩
    · rw [count, hcount, countGreed, if_neg fun hno => hleft hno.1, countPass, if_neg fun hno => hleft hno.1]
    · rw [gains, hgains, hcount, greedGains, if_neg fun hno => hleft hno.1, List.append_nil]

theorem count_greed (ht : r.Tally) (hneed : ∀ v, ¬ r.Asks forNeed e v) (h : r.Wins forGreed e v) :
    ∃ v, r.Wins forGreed e v ∧
      count e r loot = (if v.vote = .greed then loot.award r v.guid e
        else loot.giveAway LootItem.markLooted (loot.placeOf r.itemSlot)) ∧
      gains disenchantID e r loot = if v.vote = .greed then loot.awardGains r v.guid e
        else [.autoStoreLoot v.guid (disenchantID r.itemid)] := by
  have hlost : (r.contest forNeed e).winner = none :=
    Option.eq_none_iff_forall_ne_some.mpr fun v hw => hneed v (wins_of_contest hw).asks
  obtain ⟨hcount, hgains⟩ := countNeed_lost loot ht.need hlost
  cases hw : (r.contest forGreed e).winner with
  | none => exact absurd h.asks (nobody_of_contest hw)
  | some v =>
    obtain ⟨hleft, hloot, hgreed⟩ := countGreed_won disenchantID
      (s := ({ r with totalNeed := 0 }, loot)) rfl ht.greed hw
    refine ⟨v, wins_of_contest hw, ?_, ?_⟩
    · rw [count, hcount, countPass, if_neg fun hno => hleft hno.2, hloot]
      rfl
    · rw [gains, hgains, hcount, List.nil_append, hgreed]
      rfl

theorem count_pass (ht : r.Tally) (hneed : ∀ v, ¬ r.Asks forNeed e v)
    (hgreed : ∀ v, ¬ r.Asks forGreed e v) :
    count e r loot = loot.edit Loot.unblock (loot.placeOf r.itemSlot) ∧
      gains disenchantID e r loot = [] := by
  have hlost : ∀ {p : RollVote → Bool}, (∀ v, ¬ r.Asks p e v) → (r.contest p e).winner = none :=
    fun h => Option.eq_none_iff_forall_ne_some.mpr fun v hw => h v (wins_of_contest hw).asks
  obtain ⟨hcount, hgains⟩ := countNeed_lost loot ht.need (hlost hneed)
  obtain ⟨hcount', hgains'⟩ := countGreed_lost disenchantID
    (s := ({ r with totalNeed := 0 }, loot)) rfl ht.greed (hlost hgreed)
  refine ⟨?_, ?_⟩
  · rw [count, hcount, hcount', countPass, if_pos ⟨rfl, rfl⟩]
  · rw [gains, hgains, hcount, hgains']
    rfl

theorem exists_wins (h : ∃ v, r.Asks p e v) : ∃ v, r.Wins p e v := by
  obtain ⟨v, hv⟩ := h
  cases hw : (r.contest p e).winner with
  | none => exact absurd hv (nobody_of_contest hw)
  | some v => exact ⟨v, wins_of_contest hw⟩

theorem forGreed_cases (h : forGreed v.vote = true) : v.vote = .greed ∨ v.vote = .disenchant := by
  simpa [forGreed] using h

end Roll

/-! ### What becomes of the entry -/

namespace Loot

variable {r : Roll} {guid : ℕ} {e : Evaluation} {loot : Loot} {item : LootItem}

theorem award_fits (hitem : loot.entry (loot.placeOf r.itemSlot) = some item)
    (hfits : e.canStoreNewItem guid r.itemid item.count = EQUIP_ERR_OK) (p : Place) :
    (loot.award r guid e).entry p = (loot.edit LootItem.markLooted (loot.placeOf r.itemSlot)).entry p ∧
      loot.awardGains r guid e = [.storeNewItem guid r.itemid item.count] := by
  refine ⟨?_, ?_⟩
  · simp only [award, hitem, if_pos hfits]
    cases p <;> rfl
  · simp only [awardGains, hitem, if_pos hfits]

theorem award_full (hitem : loot.entry (loot.placeOf r.itemSlot) = some item)
    (hfull : e.canStoreNewItem guid r.itemid item.count ≠ EQUIP_ERR_OK) :
    loot.award r guid e = loot.edit (markReserved guid) (loot.placeOf r.itemSlot) ∧
      loot.awardGains r guid e = [] := by
  refine ⟨?_, ?_⟩
  · simp only [award, hitem, if_neg hfull]
  · simp only [awardGains, hitem, if_neg hfull]

end Loot

namespace World

/-- A roll before and after its count: its entry in both loots, and what was sent meanwhile. -/
structure Counting where
  roll : Roll
  evaluation : Evaluation
  before : LootItem
  after : Option LootItem
  gains : List Gain

namespace Counting
variable (c : Counting)

def Given : Prop := ∃ v, c.roll.Winner c.evaluation v ∧ c.after = some c.before.markLooted ∧
  c.gains = [.storeNewItem v.guid c.roll.itemid c.before.count]

/-- The item is looted, and the winner, who voted for it, is stored what disenchanting it gives. -/
def Disenchanted (disenchantID : ℕ → ℕ) : Prop := ∃ v, c.roll.Winner c.evaluation v ∧
  v.vote = .disenchant ∧ c.after = some c.before.markLooted ∧
  c.gains = [.autoStoreLoot v.guid (disenchantID c.roll.itemid)]

def Reserved : Prop := ∃ v, c.roll.Winner c.evaluation v ∧
  c.after = some (Loot.markReserved v.guid c.before) ∧ c.gains = []

def Freed : Prop :=
  (∀ v, ¬ c.roll.Asks Roll.forNeed c.evaluation v ∧ ¬ c.roll.Asks Roll.forGreed c.evaluation v) ∧
    c.after = some (Loot.unblock c.before) ∧ c.gains = []

def ExactlyOne (a b c : Prop) : Prop := (a ∨ b ∨ c) ∧ ¬ (a ∧ b) ∧ ¬ (a ∧ c) ∧ ¬ (b ∧ c)

theorem exactlyOne {disenchantID : ℕ → ℕ}
    (h : (c.Given ∨ c.Disenchanted disenchantID) ∨ c.Reserved ∨ c.Freed) :
    ExactlyOne (c.Given ∨ c.Disenchanted disenchantID) c.Reserved c.Freed := by
  have hsent : c.Given ∨ c.Disenchanted disenchantID → c.gains ≠ [] := by
    rintro (⟨v, -, -, hgains⟩ | ⟨v, -, -, -, hgains⟩) hnil <;>
      exact List.cons_ne_nil _ _ (hgains.symm.trans hnil)
  refine ⟨h, ?_, ?_, ?_⟩
  · rintro ⟨hgot, v, -, -, hnil⟩
    exact hsent hgot hnil
  · rintro ⟨hgot, -, -, hnil⟩
    exact hsent hgot hnil
  · rintro ⟨⟨v, (hwins | ⟨-, hwins⟩), -⟩, hnobody, -⟩
    · exact (hnobody v).1 hwins.asks
    · exact (hnobody v).2 hwins.asks

end Counting

variable {w : World} {r : Roll} {id : ℕ} {item : LootItem} {e : Evaluation} {disenchantID : ℕ → ℕ}

def counting (w : World) (disenchantID : ℕ → ℕ) (r : Roll) (e : Evaluation) (id : ℕ) (item : LootItem) :
    Counting where
  roll := r
  evaluation := e
  before := item
  after := ((w.countTheRoll r e).loots id).entry ((w.loots id).placeOf r.itemSlot)
  gains := r.gains disenchantID e (w.loots id)

theorem loots_countTheRoll (hloot : r.loot = some id) :
    (w.countTheRoll r e).loots id = r.count e (w.loots id) := by
  rw [countTheRoll, hloot]
  exact Function.update_self ..

theorem rolls_countTheRoll (r : Roll) (e : Evaluation) :
    (w.countTheRoll r e).rolls = w.rolls.erase r.itemGUID := by
  rw [countTheRoll]
  cases r.loot <;> rfl

theorem decided (hloot : r.loot = some id)
    (hitem : (w.loots id).entry ((w.loots id).placeOf r.itemSlot) = some item) (ht : r.Tally) :
    ((w.counting disenchantID r e id item).Given ∨
        (w.counting disenchantID r e id item).Disenchanted disenchantID) ∨
      (w.counting disenchantID r e id item).Reserved ∨ (w.counting disenchantID r e id item).Freed := by
  have hloots := loots_countTheRoll (w := w) (e := e) hloot
  have hmark : ∀ f : LootItem → LootItem,
      ((w.loots id).edit f ((w.loots id).placeOf r.itemSlot)).entry ((w.loots id).placeOf r.itemSlot) =
        some (f item) := by
    intro f
    rw [Loot.entry_edit, if_pos rfl, hitem]
    rfl
  -- who wins by `award` gets the item, or it is reserved for him
  have haward : ∀ v, r.Winner e v → r.count e (w.loots id) = (w.loots id).award r v.guid e →
      r.gains disenchantID e (w.loots id) = (w.loots id).awardGains r v.guid e →
      (w.counting disenchantID r e id item).Given ∨ (w.counting disenchantID r e id item).Reserved := by
    intro v hv hcount hgains
    by_cases hfits : e.canStoreNewItem v.guid r.itemid item.count = EQUIP_ERR_OK
    · obtain ⟨hentry, hsent⟩ := Loot.award_fits hitem hfits ((w.loots id).placeOf r.itemSlot)
      refine .inl ⟨v, hv, ?_, hgains.trans hsent⟩
      show Loot.entry _ _ = _
      rw [hloots, hcount, hentry, hmark]
      rfl
    · obtain ⟨hentry, hsent⟩ := Loot.award_full hitem hfits
      refine .inr ⟨v, hv, ?_, hgains.trans hsent⟩
      show Loot.entry _ _ = _
      rw [hloots, hcount, hentry, hmark]
      rfl
  by_cases hneed : ∃ v, r.Asks Roll.forNeed e v
  · obtain ⟨v, hv⟩ := Roll.exists_wins hneed
    obtain ⟨v, hv, hcount, hgains⟩ := Roll.count_need (w.loots id) disenchantID ht hv
    rcases haward v (.inl hv) hcount hgains with hgiven | hreserved
    · exact .inl (.inl hgiven)
    · exact .inr (.inl hreserved)
  · rw [not_exists] at hneed
    by_cases hgreed : ∃ v, r.Asks Roll.forGreed e v
    · obtain ⟨v, hv⟩ := Roll.exists_wins hgreed
      obtain ⟨v, hv, hcount, hgains⟩ := Roll.count_greed (w.loots id) disenchantID ht hneed hv
      rcases Roll.forGreed_cases hv.asks.vote with hvote | hvote
      · rw [if_pos hvote] at hcount hgains
        rcases haward v (.inr ⟨hneed, hv⟩) hcount hgains with hgiven | hreserved
        · exact .inl (.inl hgiven)
        · exact .inr (.inl hreserved)
      · have hne : v.vote ≠ .greed := by
          rw [hvote]
          decide
        rw [if_neg hne] at hcount hgains
        refine .inl (.inr ⟨v, .inr ⟨hneed, hv⟩, hvote, ?_, hgains⟩)
        show Loot.entry _ _ = _
        rw [hloots, hcount]
        exact hmark LootItem.markLooted
    · rw [not_exists] at hgreed
      obtain ⟨hcount, hgains⟩ := Roll.count_pass (w.loots id) disenchantID ht hneed hgreed
      refine .inr (.inr ⟨fun v => ⟨hneed v, hgreed v⟩, ?_, hgains⟩)
      show Loot.entry _ _ = _
      rw [hloots, hcount]
      exact hmark Loot.unblock

/-! ### EndRoll -/

def endRollLoop (id : ℕ) (e : ℕ → Evaluation) (w : World) : World :=
  match _h : w.rolls.rows.find? fun r => r.loot = some id with
  | none => w
  | some r => endRollLoop id e (w.countTheRoll r (e r.itemGUID))
termination_by w.rolls.size
decreasing_by
  have hmem : r ∈ w.rolls := List.mem_of_find?_eq_some _h
  rw [rolls_countTheRoll]
  exact Nat.lt_of_succ_le (w.rolls.size_erase_of_mem hmem).le

theorem endRollLoop_none (h : w.rolls.rows.find? (fun r => r.loot = some id) = none) (es : ℕ → Evaluation) :
    w.endRollLoop id es = w := by
  rw [endRollLoop]
  split
  · rfl
  · rename_i hsome
    rw [h] at hsome
    cases hsome

theorem endRollLoop_some (h : w.rolls.rows.find? (fun r => r.loot = some id) = some r) (es : ℕ → Evaluation) :
    w.endRollLoop id es = (w.countTheRoll r (es r.itemGUID)).endRollLoop id es := by
  rw [endRollLoop]
  split
  · rename_i hnone
    rw [h] at hnone
    cases hnone
  · rename_i hsome
    rw [h] at hsome
    cases hsome
    rfl

theorem rolls_endRollLoop (id : ℕ) (es : ℕ → Evaluation) (w : World) :
    (w.endRollLoop id es).rolls.rows = w.rolls.rows.filter fun r => r.loot ≠ some id := by
  fun_induction endRollLoop id es w with
  | case1 w hnone =>
    refine (List.filter_eq_self.mpr fun r hr => ?_).symm
    simpa using List.find?_eq_none.mp hnone r hr
  | case2 w r hsome ih =>
    have hlink : r.loot = some id := by simpa using List.find?_some hsome
    have hmem : r ∈ w.rolls := List.mem_of_find?_eq_some hsome
    rw [ih, rolls_countTheRoll]
    show (w.rolls.rows.filter _).filter _ = _
    rw [List.filter_filter]
    refine List.filter_congr fun r' hr' => ?_
    by_cases hguid : r'.itemGUID = r.itemGUID
    · rw [w.rolls.eq_of_key_eq hr' hmem hguid]
      simp [hlink]
    · simp [hguid]

theorem rows_countTheRoll {pre rs : List Roll} (hrows : w.rolls.rows = pre ++ r :: rs) (e : Evaluation) :
    (w.countTheRoll r e).rolls.rows = pre ++ rs := by
  have hkeys := w.rolls.distinct
  rw [hrows, List.map_append, List.map_cons, List.nodup_middle, List.nodup_cons, ← List.map_append] at hkeys
  rw [rolls_countTheRoll]
  show w.rolls.rows.filter _ = _
  rw [hrows, List.filter_append, List.filter_cons_of_neg (by simp), ← List.filter_append]
  refine List.filter_eq_self.mpr fun r' hr' => decide_eq_true fun hguid => hkeys.1 ?_
  exact hguid ▸ List.mem_map_of_mem hr'

theorem endRoll_eq_loop (id : ℕ) (es : ℕ → Evaluation) (w : World) :
    w.endRoll id es = w.endRollLoop id es := by
  have hpass : ∀ (rs pre : List Roll) (t : World), t.rolls.rows = pre ++ rs →
      (∀ r ∈ pre, r.loot ≠ some id) → rs.foldl (endRollOf id es) t = t.endRollLoop id es := by
    intro rs
    induction rs with
    | nil =>
      intro pre t hrows hpre
      rw [List.append_nil] at hrows
      rw [List.foldl_nil, endRollLoop_none]
      rw [hrows]
      exact List.find?_eq_none.mpr fun r hr => by simpa using hpre r hr
    | cons r rs ih =>
      intro pre t hrows hpre
      rw [List.foldl_cons, endRollOf]
      by_cases hlink : r.loot = some id
      · have hfirst : t.rolls.rows.find? (fun r => r.loot = some id) = some r := by
          rw [hrows, List.find?_append, List.find?_eq_none.mpr fun r hr => by simpa using hpre r hr]
          simp [hlink]
        rw [if_pos hlink, endRollLoop_some hfirst]
        exact ih pre _ (rows_countTheRoll hrows _) hpre
      · rw [if_neg hlink]
        refine ih (pre ++ [r]) t (by rw [hrows, List.append_assoc]; rfl) fun r' hr' => ?_
        rcases List.mem_append.mp hr' with hr' | hr'
        · exact hpre r' hr'
        · rw [List.mem_singleton.mp hr']
          exact hlink
  exact hpass w.rolls.rows [] w rfl fun r hr => absurd hr List.not_mem_nil

/-- What `CountTheRoll` makes of a valid roll whose totals agree with its votes, and where `EndRoll`
ends. -/
theorem roll_outcome (disenchantID : ℕ → ℕ) (hr : r ∈ w.rolls) (hloot : r.loot = some id)
    (hitem : (w.loots id).entry ((w.loots id).placeOf r.itemSlot) = some item) (ht : r.Tally)
    (e : Evaluation) :
    Counting.ExactlyOne
        ((w.counting disenchantID r e id item).Given ∨
          (w.counting disenchantID r e id item).Disenchanted disenchantID)
        (w.counting disenchantID r e id item).Reserved (w.counting disenchantID r e id item).Freed ∧
      (r ∉ (w.countTheRoll r e).rolls ∧ ∀ r' ∈ w.rolls, r' ≠ r → r' ∈ (w.countTheRoll r e).rolls) ∧
      ∀ (t : World) (id' : ℕ) (es : ℕ → Evaluation),
        (t.endRollLoop id' es).rolls.rows = t.rolls.rows.filter fun r' => r'.loot ≠ some id' := by
  refine ⟨Counting.exactlyOne _ (decided hloot hitem ht), ⟨?_, fun r' hr' hne => ?_⟩, fun t id' es =>
    rolls_endRollLoop id' es t⟩
  · rw [rolls_countTheRoll, KeyedList.mem_erase]
    exact fun hmem => hmem.2 rfl
  · rw [rolls_countTheRoll, KeyedList.mem_erase]
    exact ⟨hr', fun hguid => hne (w.rolls.eq_of_key_eq hr' hr hguid)⟩

section Samples

def sampleItem : LootItem := ⟨100, [], 0, 1, false, true, false, false, true, false, false⟩

def sampleDisenchantID (itemid : ℕ) : ℕ := itemid + 5000

def sampleVotes (x y z : RollVote) : KeyedList PlayerVote.guid :=
  ⟨[⟨1, x⟩, ⟨2, y⟩, ⟨3, z⟩], by simp⟩

def sampleNeed : Roll := ⟨7, 100, some 0, 0, sampleVotes .need .greed .greed, 3, 1, 2, 0⟩

def sampleDisenchant : Roll := ⟨7, 100, some 0, 0, sampleVotes .pass .disenchant .pass, 3, 0, 1, 2⟩

def sampleRolling (r : Roll) : World :=
  ⟨⟨.groupLoot, 0, 1⟩, [1, 2, 3], false, ⟨[r], List.nodup_singleton _⟩,
    fun _ => { Loot.new 0 with items := [sampleItem], unlootedCount := 1 }, 8, []⟩

def sampleFull : Evaluation := ⟨fun guid => guid ≠ 1, fun guid => guid, fun _ _ _ => 50⟩

def sampleCounting (r : Roll) : Counting :=
  (sampleRolling r).counting sampleDisenchantID r sampleFull 0 sampleItem

theorem roll_outcome_absent :
    Counting.ExactlyOne
      ((sampleCounting sampleNeed).Given ∨ (sampleCounting sampleNeed).Disenchanted sampleDisenchantID)
      (sampleCounting sampleNeed).Reserved (sampleCounting sampleNeed).Freed :=
  (@roll_outcome (sampleRolling sampleNeed) sampleNeed 0 sampleItem
    sampleDisenchantID (List.mem_singleton_self _) rfl rfl
    ⟨by decide, by decide, by decide, by decide⟩ sampleFull).1

/-- A disenchanter's item is looted, though the item itself is neither given to him nor kept. -/
theorem disenchanted_not_given : ¬ ∀ (w : World) (r : Roll) (id : ℕ) (item : LootItem) (e : Evaluation)
    (disenchantID : ℕ → ℕ), r ∈ w.rolls → r.loot = some id →
    (w.loots id).entry ((w.loots id).placeOf r.itemSlot) = some item → r.Tally →
    Counting.ExactlyOne (w.counting disenchantID r e id item).Given
      (w.counting disenchantID r e id item).Reserved (w.counting disenchantID r e id item).Freed := by
  intro hall
  obtain ⟨hone, -⟩ := hall (sampleRolling sampleDisenchant) sampleDisenchant 0 sampleItem sampleFull
    sampleDisenchantID (List.mem_singleton_self _) rfl rfl ⟨by decide, by decide, by decide, by decide⟩
  have hgains : (sampleCounting sampleDisenchant).gains = [.autoStoreLoot 2 5100] := by decide +kernel
  rcases hone with ⟨v, -, -, hsent⟩ | ⟨v, -, -, hsent⟩ | ⟨-, -, hsent⟩
  · cases hgains.symm.trans hsent
  · cases hgains.symm.trans hsent
  · cases hgains.symm.trans hsent

end Samples

end World

end HysteriaCore.Looting

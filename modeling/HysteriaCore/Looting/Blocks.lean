import HysteriaCore.Looting.Release

/-!
# Entries that a roll blocked

The start of a roll blocks its entry, and the count of the roll releases it.
`Disband` drops the rolls of a group without counting them, also when
`RemoveMember` comes to it because too few members are left.
-/

namespace HysteriaCore.Looting
open Lib

variable {id : ℕ} {loot : Loot}

namespace World

def Held (w : World) (id : ℕ) (p : Place) : Prop :=
  ∃ r ∈ w.rolls, r.loot = some id ∧ (w.loots id).placeOf r.itemSlot = p

/-- Entries ease, and where a roll is gone its entry is released. -/
structure Resolves (w t : World) : Prop where
  loots : ∀ id, (w.loots id).Via LootItem.Eases (t.loots id)
  held : ∀ id p, w.Held id p → (t.loots id).Released p ∨ t.Held id p

variable {w t u : World}

theorem Resolves.refl (w : World) : w.Resolves w :=
  ⟨fun id => .refl .refl (w.loots id), fun _ _ h => .inr h⟩

theorem Resolves.trans (h : w.Resolves t) (h' : t.Resolves u) : w.Resolves u := by
  refine ⟨fun id => (h.loots id).trans .trans (h'.loots id), fun id p hp => ?_⟩
  rcases h.held id p hp with hreleased | hheld
  · exact .inl (hreleased.eases (h'.loots id))
  · exact h'.held id p hheld

variable {R : LootItem → LootItem → Prop}

theorem via_setLoot (hR : ∀ item, R item item)
    (h : (w.loots id).Via R loot) (id' : ℕ) : (w.loots id').Via R ((w.setLoot id loot).loots id') := by
  by_cases hid : id' = id
  · subst hid
    simpa [setLoot] using h
  · simpa [setLoot, Function.update_of_ne hid] using Loot.Via.refl hR (w.loots id')

theorem Held.of_rolls {p : Place} (h : w.Held id p)
    (hrolls : ∀ r ∈ w.rolls, r.loot = some id → ∃ r' ∈ t.rolls, r'.loot = some id ∧
      r'.itemSlot = r.itemSlot)
    (hlength : (t.loots id).items.length = (w.loots id).items.length) : t.Held id p := by
  obtain ⟨r, hr, hloot, rfl⟩ := h
  obtain ⟨r', hr', hloot', hslot⟩ := hrolls r hr hloot
  exact ⟨r', hr', hloot', by rw [Loot.placeOf, Loot.placeOf, hlength, hslot]⟩

theorem resolves_setLoot (h : (w.loots id).Via LootItem.Eases loot) : w.Resolves (w.setLoot id loot) := by
  have hvia := via_setLoot .refl h
  exact ⟨hvia, fun id' p hp => .inr (hp.of_rolls (fun r hr hloot => ⟨r, hr, hloot, rfl⟩)
    (hvia id').length)⟩

theorem resolves_adjust (w : World) (itemGUID : ℕ) {f : Roll → Roll}
    (hf : ∀ r, (f r).itemGUID = r.itemGUID)
    (hsame : ∀ r, (f r).loot = r.loot ∧ (f r).itemSlot = r.itemSlot) :
    w.Resolves { w with rolls := w.rolls.adjust itemGUID f hf } := by
  refine ⟨fun id => .refl .refl (w.loots id), fun id p hp => .inr (hp.of_rolls ?_ rfl)⟩
  intro r hr hloot
  refine ⟨if r.itemGUID = itemGUID then f r else r,
    (w.rolls.mem_adjust itemGUID f hf _).mpr ⟨r, hr, rfl⟩, ?_⟩
  split
  · exact ⟨(hsame r).1.trans hloot, (hsame r).2⟩
  · exact ⟨hloot, rfl⟩

theorem loot_choose (r : Roll) (guid choice : ℕ) : (r.choose guid choice).loot = r.loot ∧
    (r.choose guid choice).itemSlot = r.itemSlot := by
  unfold Roll.choose
  split_ifs <;> exact ⟨rfl, rfl⟩

theorem resolves_countTheRoll {r : Roll}
    (hr : ∀ r' ∈ w.rolls, r'.itemGUID = r.itemGUID → r'.loot = r.loot ∧ r'.itemSlot = r.itemSlot)
    (hsettling : r.loot.isSome → r.Settling) (e : Evaluation) : w.Resolves (w.countTheRoll r e) := by
  rw [countTheRoll]
  cases hloot : r.loot with
  | none =>
    refine ⟨fun id => .refl .refl (w.loots id), fun id p hp => .inr (hp.of_rolls ?_ rfl)⟩
    intro r' hr' hsome
    refine ⟨r', (w.rolls.mem_erase _ _).mpr ⟨hr', fun hguid => ?_⟩, hsome, rfl⟩
    rw [(hr r' hr' hguid).1, hloot] at hsome
    cases hsome
  | some id =>
    have hset : r.Settling := hsettling (by rw [hloot]; rfl)
    have hvia : (w.loots id).Via LootItem.Eases
        (Roll.countPass (Roll.countGreed e (Roll.countNeed e (r, w.loots id)))) :=
      Roll.via_countPass (Roll.counted_countGreed (Roll.counted_countNeed e) e)
    have hloots := via_setLoot (w := { w with rolls := w.rolls.erase r.itemGUID }) .refl hvia
    refine ⟨hloots, fun id' p hp => ?_⟩
    obtain ⟨r', hr', hsome, rfl⟩ := hp
    by_cases hguid : r'.itemGUID = r.itemGUID
    · -- the roll that was counted
      obtain ⟨hlink, hslot⟩ := hr r' hr' hguid
      obtain rfl : id = id' := Option.some.inj (hloot.symm.trans (hlink.symm.trans hsome))
      left
      rw [hslot]
      simpa [setLoot] using Roll.released_count hset e
    · right
      refine ⟨r', (w.rolls.mem_erase _ _).mpr ⟨hr', hguid⟩, hsome, ?_⟩
      exact Loot.placeOf_via (hloots id') _

def FairIn (w : World) (r : Roll) : Prop :=
  ∀ id, r.loot = some id →
    r.Fair ∧ ((w.loots id).items = [] → r.totalNeed = 0 ∧ r.totalGreed = 0)

/-- The rolls of a group, those with other guids than `but` being fair. -/
structure FairBut (but : Option ℕ) (w : World) : Prop where
  members : w.members.length ≤ MAXRAIDSIZE
  fresh : ∀ r ∈ w.rolls, r.itemGUID < w.nextItemGuid
  fair : ∀ r ∈ w.rolls, some r.itemGUID ≠ but → w.FairIn r

variable {but : Option ℕ}

theorem FairBut.weaken (h : w.FairBut none) (but : Option ℕ) : w.FairBut but :=
  ⟨h.members, h.fresh, fun r hr _ => h.fair r hr (by simp)⟩

theorem FairIn.length {r : Roll} (h : w.FairIn r)
    (hlength : ∀ id, (t.loots id).items.length = (w.loots id).items.length) : t.FairIn r := by
  intro id hloot
  obtain ⟨hfair, hquiet⟩ := h id hloot
  refine ⟨hfair, fun hnil => hquiet ?_⟩
  rw [← List.length_eq_zero_iff, ← hlength, hnil]
  rfl

theorem FairBut.sub (h : w.FairBut but) {but' : Option ℕ} (hmembers : t.members.length ≤ MAXRAIDSIZE)
    (hnext : w.nextItemGuid ≤ t.nextItemGuid)
    (hrolls : ∀ r ∈ t.rolls, r ∈ w.rolls ∧ (some r.itemGUID ≠ but' → some r.itemGUID ≠ but))
    (hlength : ∀ id, (t.loots id).items.length = (w.loots id).items.length) : t.FairBut but' :=
  ⟨hmembers, fun r hr => (h.fresh r (hrolls r hr).1).trans_le hnext,
    fun r hr hne => (h.fair r (hrolls r hr).1 ((hrolls r hr).2 hne)).length hlength⟩

theorem FairBut.countTheRoll (r : Roll) (h : w.FairBut (some r.itemGUID)) (e : Evaluation) :
    (w.countTheRoll r e).FairBut none := by
  have herase : ∀ r' ∈ w.rolls.erase r.itemGUID, r' ∈ w.rolls ∧
      (some r'.itemGUID ≠ none → some r'.itemGUID ≠ some r.itemGUID) := by
    intro r' hr'
    obtain ⟨hmem, hne⟩ := (w.rolls.mem_erase _ _).mp hr'
    exact ⟨hmem, fun _ heq => hne (Option.some.inj heq)⟩
  rw [World.countTheRoll]
  cases r.loot with
  | none => exact h.sub h.members le_rfl herase fun _ => rfl
  | some id =>
    have hvia : (w.loots id).Via LootItem.Eases
        (Roll.countPass (Roll.countGreed e (Roll.countNeed e (r, w.loots id)))) :=
      Roll.via_countPass (Roll.counted_countGreed (Roll.counted_countNeed e) e)
    have hloots := via_setLoot (w := { w with rolls := w.rolls.erase r.itemGUID }) .refl hvia
    exact h.sub h.members le_rfl herase fun id' => (hloots id').length

theorem rollFor_eq_some {guid itemGUID choice : ℕ} {r : Roll}
    (h : w.rollFor guid itemGUID choice = some r) :
    r ∈ w.rolls ∧ r.itemGUID = itemGUID ∧ r.loot.isSome = true ∧
      ∀ id, r.loot = some id → (w.loots id).items ≠ [] := by
  obtain ⟨hfind, -⟩ := find?_of_rollFor h
  obtain ⟨hget, htest⟩ := Option.filter_eq_some_iff.mp h
  obtain ⟨-, hlive⟩ := Option.filter_eq_some_iff.mp hget
  obtain ⟨hmem, hguid⟩ := (w.rolls.find?_eq_some_iff _ _).mp hfind
  refine ⟨hmem, hguid, hlive, fun id hloot hnil => ?_⟩
  simp [hloot, hnil] at htest

theorem countRollVote_spec (guid : ℕ) {itemGUID : ℕ} (choice : ℕ) (h : w.FairBut (some itemGUID))
    (hnone : w.rollFor guid itemGUID choice = none → w.FairBut none)
    (hsome : ∀ r, w.rollFor guid itemGUID choice = some r →
      (r.choose guid choice).Counts ∧ (r.choose guid choice).Settling) (e : Evaluation) :
    w.Resolves (w.countRollVote guid itemGUID choice e) ∧
      (w.countRollVote guid itemGUID choice e).FairBut none := by
  rw [countRollVote]
  cases hr : w.rollFor guid itemGUID choice with
  | none => exact ⟨.refl w, hnone hr⟩
  | some r =>
    obtain ⟨hcounts, hsettling⟩ := hsome r hr
    obtain ⟨hmem, rfl, hlive, hitems⟩ := rollFor_eq_some hr
    have hadjust := resolves_adjust w r.itemGUID (Roll.choose_itemGUID · guid choice)
      (loot_choose · guid choice)
    have hrows : ∀ r' ∈ w.rolls.adjust r.itemGUID (Roll.choose · guid choice)
        (Roll.choose_itemGUID · guid choice),
        (r'.itemGUID ≠ r.itemGUID ∧ r' ∈ w.rolls) ∨ r' = r.choose guid choice :=
      fun r' hr' => w.rolls.mem_adjust_of_mem hmem _ _ hr'
    dsimp only
    split
    · -- complete: the roll is counted
      have hbut : FairBut (some (r.choose guid choice).itemGUID) { w with
          rolls := w.rolls.adjust r.itemGUID (Roll.choose · guid choice)
            (Roll.choose_itemGUID · guid choice)
          evaluated := w.evaluated ++ [r.choose guid choice] } := by
        rw [Roll.choose_itemGUID]
        refine ⟨h.members, fun r' hr' => ?_, fun r' hr' hne => ?_⟩
        · rcases hrows r' hr' with ⟨_, hold⟩ | rfl
          · exact h.fresh r' hold
          · rw [Roll.choose_itemGUID]
            exact h.fresh r hmem
        · rcases hrows r' hr' with ⟨_, hold⟩ | rfl
          · exact h.fair r' hold hne
          · exact absurd (congrArg some (Roll.choose_itemGUID r guid choice)) hne
      have hlogged : w.Resolves { w with
          rolls := w.rolls.adjust r.itemGUID (Roll.choose · guid choice)
            (Roll.choose_itemGUID · guid choice)
          evaluated := w.evaluated ++ [r.choose guid choice] } := ⟨hadjust.loots, hadjust.held⟩
      refine ⟨hlogged.trans (resolves_countTheRoll (fun r' hr' hguid => ?_) (fun _ => hsettling) e),
        hbut.countTheRoll _ e⟩
      rcases hrows r' hr' with ⟨hne, _⟩ | rfl
      · exact absurd (hguid.trans (Roll.choose_itemGUID ..)) hne
      · exact ⟨rfl, rfl⟩
    · rename_i hwait
      refine ⟨hadjust, h.members, fun r' hr' => ?_, fun r' hr' _ => ?_⟩
      · rcases hrows r' hr' with ⟨_, hold⟩ | rfl
        · exact h.fresh r' hold
        · rw [Roll.choose_itemGUID]
          exact h.fresh r hmem
      · rcases hrows r' hr' with ⟨hne, hold⟩ | rfl
        · exact h.fair r' hold fun heq => hne (Option.some.inj heq)
        · intro id hloot
          rw [(loot_choose r guid choice).1] at hloot
          exact ⟨hcounts.fair (Bool.of_not_eq_true hwait), fun hnil => absurd hnil (hitems id hloot)⟩

theorem resolves_countRollVote (h : w.FairBut none) (guid itemGUID choice : ℕ) (e : Evaluation) :
    w.Resolves (w.countRollVote guid itemGUID choice e) ∧
      (w.countRollVote guid itemGUID choice e).FairBut none := by
  refine countRollVote_spec guid choice (h.weaken _) (fun _ => h) (fun r hr => ?_) e
  obtain ⟨hmem, -, hlive, -⟩ := rollFor_eq_some hr
  obtain ⟨id, hloot⟩ := Option.isSome_iff_exists.mp hlive
  exact (h.fair r hmem (by simp) id hloot).1.choose (find?_of_rollFor hr).2

theorem resolves_leaveRoll (h : w.FairBut none) (guid : ℕ) (e : ℕ → Evaluation) (itemGUID : ℕ) :
    w.Resolves (w.leaveRoll guid e itemGUID) ∧ (w.leaveRoll guid e itemGUID).FairBut none := by
  rw [leaveRoll]
  cases hr : w.rolls.find? itemGUID with
  | none => exact ⟨.refl w, h⟩
  | some r =>
    obtain ⟨hmem, rfl⟩ := (w.rolls.find?_eq_some_iff _ _).mp hr
    dsimp only
    cases hv : r.playerVote.find? guid with
    | none => exact ⟨.refl w, h⟩
    | some v =>
      have hvoter : v ∈ r.playerVote := ((r.playerVote.find?_eq_some_iff _ _).mp hv).1
      dsimp only
      set left : World := { w with rolls := w.rolls.adjust r.itemGUID (Roll.leave · v) fun _ => rfl }
        with hleft
      have hadjust : w.Resolves left := resolves_adjust w r.itemGUID _ fun _ => ⟨rfl, rfl⟩
      have hrows : ∀ r' ∈ left.rolls, (r'.itemGUID ≠ r.itemGUID ∧ r' ∈ w.rolls) ∨ r' = r.leave v :=
        fun r' hr' => w.rolls.mem_adjust_of_mem hmem (Roll.leave · v) (fun _ => rfl) hr'
      have hfresh : ∀ r' ∈ left.rolls, r'.itemGUID < left.nextItemGuid := by
        intro r' hr'
        rcases hrows r' hr' with ⟨_, hold⟩ | rfl
        · exact h.fresh r' hold
        · exact h.fresh r hmem
      have hbut : left.FairBut (some r.itemGUID) := by
        refine ⟨h.members, hfresh, fun r' hr' hne => ?_⟩
        rcases hrows r' hr' with ⟨_, hold⟩ | rfl
        · exact h.fair r' hold (by simp)
        · exact absurd rfl hne
      have hmine := h.fair r hmem (by simp)
      have hfind : left.rolls.find? r.itemGUID = some (r.leave v) :=
        (left.rolls.find?_eq_some_iff _ _).mpr ⟨w.rolls.adjust_mem hmem (Roll.leave · v) fun _ => rfl, rfl⟩
      -- the vote comes to nothing: the loot is gone, or it has no items
      have hnone : left.rollFor guid r.itemGUID MAX_ROLL_TYPE = none → left.FairBut none := by
        intro hnone
        refine ⟨h.members, hfresh, fun r' hr' _ => ?_⟩
        rcases hrows r' hr' with ⟨_, hold⟩ | rfl
        · exact h.fair r' hold (by simp)
        · intro id hloot
          obtain ⟨hfair, hquiet⟩ := hmine id hloot
          obtain ⟨hcounts, -, hfew, hzero⟩ := hfair.leave hvoter
          have hnil : (w.loots id).items = [] := by
            simpa [rollFor, getRoll, hfind, hloot, Option.filter_eq_none_iff] using hnone
          have hquiet' := hzero (hquiet hnil)
          exact ⟨⟨hcounts, hfew, .inl hquiet'⟩, fun _ => hquiet'⟩
      have hsome : ∀ r', left.rollFor guid r.itemGUID MAX_ROLL_TYPE = some r' →
          (r'.choose guid MAX_ROLL_TYPE).Counts ∧ (r'.choose guid MAX_ROLL_TYPE).Settling := by
        intro r' hr'
        obtain ⟨hmem', hguid, hlive, -⟩ := rollFor_eq_some hr'
        rcases hrows r' hmem' with ⟨hne, _⟩ | rfl
        · exact absurd hguid hne
        · obtain ⟨id, hloot⟩ := Option.isSome_iff_exists.mp hlive
          obtain ⟨hcounts, hsettling, -⟩ := (hmine id hloot).1.leave hvoter
          exact ⟨hcounts, hsettling⟩
      obtain ⟨hresolves, hfair⟩ :=
        countRollVote_spec guid MAX_ROLL_TYPE hbut hnone hsome (e r.itemGUID)
      exact ⟨hadjust.trans hresolves, hfair⟩

theorem resolves_removeMember (h : w.FairBut none) (guid : ℕ) (e : ℕ → Evaluation)
    (hmany : (if w.smallGroup then 1 else 2) < w.members.length) :
    w.Resolves (w.removeMember guid e) ∧ (w.removeMember guid e).FairBut none := by
  rw [removeMember, if_pos hmany]
  have hfold : w.Resolves ((w.rolls.rows.map Roll.itemGUID).foldl (leaveRoll guid e) w) ∧
      ((w.rolls.rows.map Roll.itemGUID).foldl (leaveRoll guid e) w).FairBut none := by
    refine foldl_invariant (I := fun t => w.Resolves t ∧ t.FairBut none)
      (fun t itemGUID ht => ?_) _ ⟨.refl w, h⟩
    obtain ⟨hresolves, hfair⟩ := resolves_leaveRoll ht.2 guid e itemGUID
    exact ⟨ht.1.trans hresolves, hfair⟩
  obtain ⟨hresolves, hfair⟩ := hfold
  exact ⟨⟨hresolves.loots, hresolves.held⟩, List.length_erase_le.trans hfair.members, hfair.fresh,
    hfair.fair⟩

theorem mem_rolls_countTheRoll {r r' : Roll} {e : Evaluation} (h : r' ∈ (w.countTheRoll r e).rolls) :
    r' ∈ w.rolls := by
  have herase : r' ∈ w.rolls.erase r.itemGUID := by
    rw [countTheRoll] at h
    cases hloot : r.loot with
    | none =>
      rw [hloot] at h
      exact h
    | some id =>
      rw [hloot] at h
      exact h
  exact ((w.rolls.mem_erase _ _).mp herase).1

theorem resolves_endRoll (h : w.FairBut none) (id : ℕ) (e : ℕ → Evaluation) :
    w.Resolves (w.endRoll id e) ∧ (w.endRoll id e).FairBut none := by
  -- what is left of the list when a roll of it comes up is a part of it
  have hloop : ∀ (rs : List Roll) (t : World), (∀ r ∈ rs, r ∈ w.rolls) → (∀ r ∈ t.rolls, r ∈ w.rolls) →
      w.Resolves t → t.FairBut none →
      w.Resolves (rs.foldl (endRollOf id e) t) ∧ (rs.foldl (endRollOf id e) t).FairBut none := by
    intro rs
    induction rs with
    | nil => exact fun t _ _ hresolves hfair => ⟨hresolves, hfair⟩
    | cons r rs ih =>
      intro t hrs hsub hresolves hfair
      have hr := hrs r (List.mem_cons_self ..)
      have hrest : ∀ x ∈ rs, x ∈ w.rolls := fun x hx => hrs x (List.mem_cons_of_mem _ hx)
      rw [List.foldl_cons]
      by_cases hloot : r.loot = some id
      · rw [endRollOf, if_pos hloot]
        have hcount : t.Resolves (t.countTheRoll r (e r.itemGUID)) := by
          refine resolves_countTheRoll (fun r' hr' hguid => ?_) (fun _ => ?_) _
          · rw [w.rolls.eq_of_key_eq (hsub r' hr') hr hguid]
            exact ⟨rfl, rfl⟩
          · exact (h.fair r hr (by simp) id hloot).1.settling
        exact ih _ hrest (fun r' hr' => hsub r' (mem_rolls_countTheRoll hr')) (hresolves.trans hcount)
          ((hfair.weaken _).countTheRoll r _)
      · rw [endRollOf, if_neg hloot]
        exact ih t hrest hsub hresolves hfair
  exact hloop _ w (fun _ hr => hr) (fun _ hr => hr) (.refl w) h

/-! ### What does not end a roll -/

structure Extends (w t : World) : Prop where
  loots : ∀ id, (w.loots id).Via LootItem.Stays (t.loots id)
  held : ∀ id p, w.Held id p → t.Held id p

theorem Extends.refl (w : World) : w.Extends w :=
  ⟨fun id => .refl .refl (w.loots id), fun _ _ h => h⟩

theorem Extends.trans (h : w.Extends t) (h' : t.Extends u) : w.Extends u :=
  ⟨fun id => (h.loots id).trans .trans (h'.loots id), fun id p hp => h'.held id p (h.held id p hp)⟩

theorem extends_setLoot (h : (w.loots id).Via LootItem.Stays loot) : w.Extends (w.setLoot id loot) := by
  have hvia := via_setLoot .refl h
  exact ⟨hvia, fun id' p hp => hp.of_rolls (fun r hr hloot => ⟨r, hr, hloot, rfl⟩) (hvia id').length⟩

theorem FairBut.setLoot (h : w.FairBut none)
    (hR : ∀ item, R item item) (hvia : (w.loots id).Via R loot) : (w.setLoot id loot).FairBut none :=
  h.sub h.members le_rfl (fun _ hr => ⟨hr, fun hne => hne⟩) fun id' => (via_setLoot hR hvia id').length

theorem extends_startRoll (h : w.FairBut none) (proto : ℕ → Option ItemTemplate) (id itemSlot : ℕ)
    (p : Place) (item : LootItem) (autoPass : Bool) {looters : List Looter}
    (hdistinct : (looters.map Looter.guid).Nodup) (hsize : looters.length ≤ MAXRAIDSIZE) :
    w.Extends (w.startRoll proto id itemSlot p item autoPass looters) ∧
      (w.startRoll proto id itemSlot p item autoPass looters).FairBut none := by
  have hsound := (Roll.Sound.new w.nextItemGuid item).enterAll proto item autoPass hdistinct
    (fun _ _ => rfl) (by simpa [Roll.new, KeyedList.size, KeyedList.empty] using hsize)
  obtain ⟨hneed, hgreed⟩ :=
    Roll.totals_enterAll proto looters item autoPass (Roll.new w.nextItemGuid item)
  have hguid : (enterAll proto looters item autoPass (Roll.new w.nextItemGuid item)).itemGUID =
      w.nextItemGuid := by
    refine foldl_invariant (I := fun r : Roll => r.itemGUID = w.nextItemGuid) (fun r l hr => ?_)
      looters rfl
    split <;> exact hr
  rw [startRoll]
  generalize enterAll proto looters item autoPass (Roll.new w.nextItemGuid item) = r at *
  dsimp only
  split
  · have hvia : (w.loots id).Via LootItem.Stays ((w.loots id).edit LootItem.markBlocked p) :=
      .edit .refl (fun _ hlooted => hlooted) p
    have hloots := via_setLoot .refl hvia
    constructor
    · refine ⟨hloots, fun id' p' hp => hp.of_rolls (fun r' hr' hloot => ?_) (hloots id').length⟩
      refine ⟨r', (w.rolls.mem_put _ _).mpr (.inr ⟨hr', ?_⟩), hloot, rfl⟩
      have hlt := h.fresh r' hr'
      show r'.itemGUID ≠ r.itemGUID
      omega
    · refine ⟨h.members, fun r' hr' => ?_, fun r' hr' _ => ?_⟩
      · rcases (w.rolls.mem_put _ _).mp hr' with rfl | ⟨hold, -⟩
        · show r.itemGUID < w.nextItemGuid + 1
          omega
        · exact Nat.lt_succ_of_lt (h.fresh r' hold)
      · rcases (w.rolls.mem_put _ _).mp hr' with rfl | ⟨hold, -⟩
        · have hfair : r.Fair := hsound.fair hneed hgreed
          intro id' _
          exact ⟨⟨⟨hfair.size, hfair.valid, hfair.rolling, hfair.pass, hfair.need, hfair.greed⟩,
            hfair.few, hfair.waiting⟩, fun _ => ⟨hneed, hgreed⟩⟩
        · exact (h.fair r' hold (by simp)).length fun id' => (hloots id').length
  · exact ⟨⟨fun id => .refl .refl (w.loots id), fun _ _ hp => hp⟩, h.members,
      fun r' hr' => Nat.lt_succ_of_lt (h.fresh r' hr'), h.fair⟩

theorem extends_groupLoot (h : w.FairBut none) (proto : ℕ → Option ItemTemplate) (id : ℕ)
    {looters : List Looter} (hdistinct : (looters.map Looter.guid).Nodup)
    (hsize : looters.length ≤ MAXRAIDSIZE) :
    w.Extends (w.groupLoot proto id looters) ∧ (w.groupLoot proto id looters).FairBut none := by
  have hitem : ∀ (t : World) (i : ℕ), w.Extends t ∧ t.FairBut none →
      w.Extends (t.rollItem proto id looters i) ∧ (t.rollItem proto id looters i).FairBut none := by
    rintro t i ⟨hext, hfair⟩
    rw [rollItem]
    cases (t.loots id).items[i]? with
    | none => exact ⟨hext, hfair⟩
    | some item =>
      dsimp only
      split
      · exact ⟨hext, hfair⟩
      · cases proto item.itemid with
        | none => exact ⟨hext, hfair⟩
        | some q =>
          dsimp only
          split
          · obtain ⟨hstart, hfair'⟩ :=
              extends_startRoll hfair proto id i (.item i) item true hdistinct hsize
            exact ⟨hext.trans hstart, hfair'⟩
          · have hvia : (t.loots id).Via LootItem.Stays
                ((t.loots id).edit ({ · with isUnderthreshold := true }) (.item i)) :=
              .edit .refl (fun _ hlooted => hlooted) _
            exact ⟨hext.trans (extends_setLoot hvia), hfair.setLoot .refl hvia⟩
  have hquest : ∀ (t : World) (i : ℕ), w.Extends t ∧ t.FairBut none →
      w.Extends (t.rollQuestItem proto id looters i) ∧
        (t.rollQuestItem proto id looters i).FairBut none := by
    rintro t i ⟨hext, hfair⟩
    rw [rollQuestItem]
    cases (t.loots id).questItems[i]? with
    | none => exact ⟨hext, hfair⟩
    | some item =>
      dsimp only
      split
      · exact ⟨hext, hfair⟩
      · obtain ⟨hstart, hfair'⟩ := extends_startRoll hfair proto id ((t.loots id).items.length + i)
          (.quest i) item false hdistinct hsize
        exact ⟨hext.trans hstart, hfair'⟩
  exact foldl_invariant (I := fun t => w.Extends t ∧ t.FairBut none) hquest _
    (foldl_invariant (I := fun t => w.Extends t ∧ t.FairBut none) hitem _ ⟨.refl w, h⟩)

end World

/-! ### Runs -/

structure Watched where
  world : World
  blockedByRoll : List (ℕ × Place)

namespace World

def rolled (w : World) : List (ℕ × Place) :=
  w.rolls.rows.filterMap fun r => r.loot.map fun id => (id, (w.loots id).placeOf r.itemSlot)

def isBlockedAt (w : World) (x : ℕ × Place) : Bool := ((w.loots x.1).entry x.2).any (·.isBlocked)

def AllReleased (w : World) : Prop :=
  ∀ r ∈ w.rolls, ∀ id ∈ r.loot, (w.loots id).Released ((w.loots id).placeOf r.itemSlot)

instance (w : World) : Decidable w.AllReleased := inferInstanceAs (Decidable (∀ r ∈ w.rolls.rows, ∀ _ ∈ _, _))

variable {w t : World} {proto : ℕ → Option ItemTemplate}

theorem mem_rolled {x : ℕ × Place} : x ∈ w.rolled ↔ w.Held x.1 x.2 := by
  obtain ⟨id, p⟩ := x
  simp only [rolled, List.mem_filterMap, Option.map_eq_some_iff, Held, Prod.mk.injEq]
  constructor
  · rintro ⟨r, hr, id', hloot, rfl, hplace⟩
    exact ⟨r, hr, hloot, hplace⟩
  · rintro ⟨r, hr, hloot, hplace⟩
    exact ⟨r, hr, id, hloot, rfl, hplace⟩

def Carries (w t : World) : Prop :=
  ∀ id p item item', (w.loots id).entry p = some item → (t.loots id).entry p = some item' →
    item'.isBlocked = true → item.isLooted = true ∨ w.Held id p →
      item'.isLooted = true ∨ t.Held id p

theorem Resolves.carries (h : w.Resolves t) : w.Carries t := by
  intro id p item item' hitem hitem' hblocked hsafe
  rcases hsafe with hlooted | hheld
  · obtain ⟨x, hx, hstays, -⟩ := (h.loots id).entry p item' hitem'
    obtain rfl := Option.some.inj (hitem.symm.trans hx)
    exact .inl (hstays hlooted)
  · rcases h.held id p hheld with hreleased | hheld'
    · exact .inl (hreleased item' hitem' hblocked)
    · exact .inr hheld'

theorem Extends.carries (h : w.Extends t) : w.Carries t := by
  intro id p item item' hitem hitem' _ hsafe
  rcases hsafe with hlooted | hheld
  · obtain ⟨x, hx, hstays⟩ := (h.loots id).entry p item' hitem'
    obtain rfl := Option.some.inj (hitem.symm.trans hx)
    exact .inl (hstays hlooted)
  · exact .inr (h.held id p hheld)

theorem Carries.of_same (hloots : t.loots = w.loots) (hrolls : t.rolls = w.rolls) : w.Carries t :=
  Extends.carries ⟨fun id => by rw [hloots]; exact .refl .refl _, fun id p hp =>
    hp.of_rolls (fun r hr hloot => ⟨r, by rw [hrolls]; exact hr, hloot, rfl⟩) (by rw [hloots])⟩

def FillsNew (w : World) : Event → Prop
  | .fillLoot id _ => (w.loots id).items = [] ∧ (w.loots id).questItems = []
  | _ => True

def ReleasesFirst (w : World) : Event → Prop
  | .disband => w.AllReleased
  | .removeMember _ _ => (if w.smallGroup then 1 else 2) < w.members.length ∨ w.AllReleased
  | _ => True

theorem carries_disband (h : w.AllReleased) : w.Carries w.disband := by
  intro id p item item' hitem hitem' hblocked hsafe
  obtain rfl := Option.some.inj (hitem.symm.trans hitem')
  rcases hsafe with hlooted | ⟨r, hr, hloot, rfl⟩
  · exact .inl hlooted
  · exact .inl (h r hr id hloot item hitem hblocked)

theorem fairBut_disband (w : World) : w.disband.FairBut none :=
  ⟨Nat.zero_le _, fun _ hr => absurd hr List.not_mem_nil, fun _ hr => absurd hr List.not_mem_nil⟩

theorem carries_fill
    (hnew : (w.loots id).items = [] ∧ (w.loots id).questItems = []) :
    w.Carries (w.setLoot id loot) := by
  intro id' p item item' hitem hitem' _ hsafe
  by_cases hid : id' = id
  · subst hid
    cases p <;> simp [Loot.entry, hnew] at hitem
  · have hsame : (w.setLoot id loot).loots id' = w.loots id' := Function.update_of_ne hid _ _
    rw [hsame] at hitem'
    obtain rfl := Option.some.inj (hitem.symm.trans hitem')
    refine hsafe.imp (fun h => h) fun hp => hp.of_rolls (fun r hr hloot => ⟨r, hr, hloot, rfl⟩) ?_
    rw [hsame]

theorem fairBut_fill (h : w.FairBut none) (loot : Loot) (hnew : (w.loots id).items = []) :
    (w.setLoot id loot).FairBut none := by
  refine ⟨h.members, h.fresh, fun r hr _ id' hloot => ?_⟩
  obtain ⟨hfair, hquiet⟩ := h.fair r hr (by simp) id' hloot
  refine ⟨hfair, fun hnil => ?_⟩
  by_cases hid : id' = id
  · subst hid
    exact hquiet hnew
  · rw [show (w.setLoot id loot).loots id' = w.loots id' from Function.update_of_ne hid _ _] at hnil
    exact hquiet hnil

theorem loots_clear_of_ne {id id' : ℕ} (hid : id' ≠ id) : (w.clear id).loots id' = w.loots id' :=
  Function.update_of_ne hid _ _

theorem carries_clear (id : ℕ) : w.Carries (w.clear id) := by
  intro id' p item item' hitem hitem' _ hsafe
  by_cases hid : id' = id
  · subst hid
    have hgone : (w.clear id').loots id' = .new 0 := Function.update_self ..
    rw [hgone] at hitem'
    cases p <;> simp [Loot.entry, Loot.new] at hitem'
  · rw [loots_clear_of_ne hid] at hitem'
    obtain rfl := Option.some.inj (hitem.symm.trans hitem')
    refine hsafe.imp (fun h => h) fun hp => hp.of_rolls (fun r hr hloot => ?_) ?_
    · refine ⟨_, List.mem_map_of_mem hr, ?_⟩
      have hne : r.loot ≠ some id := by
        rw [hloot]
        simpa using hid
      rw [if_neg hne]
      exact ⟨hloot, rfl⟩
    · rw [loots_clear_of_ne hid]

theorem fairBut_clear (h : w.FairBut none) (id : ℕ) : (w.clear id).FairBut none := by
  have hrows : ∀ r' ∈ (w.clear id).rolls, ∃ r ∈ w.rolls,
      (if r.loot = some id then { r with loot := none } else r) = r' := fun r' hr' => List.mem_map.mp hr'
  refine ⟨h.members, fun r' hr' => ?_, fun r' hr' _ id' hloot => ?_⟩
  · obtain ⟨r, hr, rfl⟩ := hrows r' hr'
    split <;> exact h.fresh r hr
  · obtain ⟨r, hr, rfl⟩ := hrows r' hr'
    split at hloot
    · cases hloot
    · rename_i hne
      rw [if_neg hne]
      have hid : id' ≠ id := fun heq => hne (heq ▸ hloot)
      rw [loots_clear_of_ne hid]
      exact h.fair r hr (by simp) id' hloot

theorem carries_step (h : w.FairBut none) {e : Event} (hnew : w.FillsNew e) (hok : w.ReleasesFirst e)
    (hs : w.step proto e = some t) : w.Carries t ∧ t.FairBut none := by
  cases e with
  | fillLoot id f =>
    cases hs
    exact ⟨carries_fill hnew, fairBut_fill h _ hnew.1⟩
  | fillNotNormalLootFor id v =>
    cases hs
    have hvia := Loot.Via.fillNotNormalLootFor proto (w.loots id) (w.toldVisitor v)
    exact ⟨(extends_setLoot hvia).carries, h.setLoot .refl hvia⟩
  | groupLoot id looters =>
    obtain ⟨hin, rfl⟩ := guarded_eq_some.mp hs
    obtain ⟨hext, hfair⟩ := extends_groupLoot h proto id looters.distinct
      ((length_le_of_members hin).trans h.members)
    exact ⟨hext.carries, hfair⟩
  | needBeforeGreed id looters =>
    obtain ⟨hin, rfl⟩ := guarded_eq_some.mp hs
    obtain ⟨hext, hfair⟩ := extends_groupLoot h proto id looters.distinct
      ((length_le_of_members hin).trans h.members)
    exact ⟨hext.carries, hfair⟩
  | masterLoot id =>
    cases hs
    have hvia := Loot.Via.masterLoot (w.loots id)
    exact ⟨(extends_setLoot hvia).carries, h.setLoot .refl hvia⟩
  | storeLootItem id guid a lootSlot =>
    cases hs
    have hvia := Loot.Via.storeLootItem proto (w.loots id) guid (w.told guid a) lootSlot
    exact ⟨(resolves_setLoot hvia).carries, h.setLoot .refl hvia⟩
  | masterGive id giver target a slotid =>
    obtain ⟨-, rfl⟩ := guarded_eq_some.mp hs
    have hvia := Loot.Via.masterGive proto (w.loots id) target (w.told target a) slotid
    exact ⟨(resolves_setLoot hvia).carries, h.setLoot .refl hvia⟩
  | lootRoll guid itemGUID rollType e =>
    obtain ⟨-, rfl⟩ := guarded_eq_some.mp hs
    obtain ⟨hresolves, hfair⟩ := resolves_countRollVote h guid itemGUID rollType e
    exact ⟨hresolves.carries, hfair⟩
  | addMember guid =>
    obtain ⟨hroom, rfl⟩ := guarded_eq_some.mp hs
    exact ⟨.of_same rfl rfl, Nat.succ_le_of_lt hroom.2, h.fresh, h.fair⟩
  | removeMember guid e =>
    cases hs
    by_cases hmany : (if w.smallGroup then 1 else 2) < w.members.length
    · obtain ⟨hresolves, hfair⟩ := resolves_removeMember h guid e hmany
      exact ⟨hresolves.carries, hfair⟩
    · have hreleased : w.AllReleased := hok.resolve_left hmany
      rw [removeMember, if_neg hmany]
      exact ⟨carries_disband hreleased, fairBut_disband w⟩
  | disband =>
    cases hs
    exact ⟨carries_disband hok, fairBut_disband w⟩
  | setLootMethod group =>
    cases hs
    exact ⟨.of_same rfl rfl, h.members, h.fresh, h.fair⟩
  | endRoll id e =>
    cases hs
    obtain ⟨hresolves, hfair⟩ := resolves_endRoll h id e
    exact ⟨hresolves.carries, hfair⟩
  | clear id =>
    cases hs
    exact ⟨carries_clear id, fairBut_clear h id⟩

instance (w : World) : ∀ e, Decidable (w.FillsNew e)
  | .fillLoot .. => inferInstanceAs (Decidable (_ ∧ _))
  | .fillNotNormalLootFor .. | .groupLoot .. | .needBeforeGreed .. | .masterLoot .. |
    .storeLootItem .. | .masterGive .. | .addMember .. | .removeMember .. | .disband |
    .setLootMethod .. | .endRoll .. | .clear .. | .lootRoll .. => isTrue trivial

end World

namespace Watched
open World

variable {proto : ℕ → Option ItemTemplate}

def step (proto : ℕ → Option ItemTemplate) (s : Watched) (e : Event) : Option Watched :=
  (s.world.step proto e).bind fun t => guarded (s.world.FillsNew e)
    ⟨t, (s.blockedByRoll ++ t.rolled).filter t.isBlockedAt⟩

def Started (s : Watched) : Prop := s.world.Started ∧ s.blockedByRoll = []

def ReleasesFirst (s : Watched) (e : Event) : Prop := s.world.ReleasesFirst e

def NoneForgotten (s : Watched) : Prop :=
  ∀ x ∈ s.blockedByRoll, ∃ item, (s.world.loots x.1).entry x.2 = some item ∧
    (item.isLooted = true ∨ s.world.Held x.1 x.2)

theorem noneForgotten_step {s t : Watched} {e : Event} (h : s.NoneForgotten)
    (hfair : s.world.FairBut none) (hok : s.ReleasesFirst e) (hs : s.step proto e = some t) :
    t.NoneForgotten ∧ t.world.FairBut none := by
  obtain ⟨w, hw, hguard⟩ := Option.bind_eq_some_iff.mp hs
  obtain ⟨hnew, rfl⟩ := guarded_eq_some.mp hguard
  obtain ⟨hcarries, hfair'⟩ := carries_step hfair hnew hok hw
  refine ⟨fun x hx => ?_, hfair'⟩
  obtain ⟨hx, hblocked⟩ := List.mem_filter.mp hx
  obtain ⟨item', hitem', hblocked'⟩ :
      ∃ item, (w.loots x.1).entry x.2 = some item ∧ item.isBlocked = true := by
    cases hentry : (w.loots x.1).entry x.2 with
    | none => simp [isBlockedAt, hentry] at hblocked
    | some item => exact ⟨item, rfl, by simpa [isBlockedAt, hentry] using hblocked⟩
  refine ⟨item', hitem', ?_⟩
  rcases List.mem_append.mp hx with hold | hrolled
  · obtain ⟨item, hitem, hsafe⟩ := h x hold
    exact hcarries x.1 x.2 item item' hitem hitem' hblocked' hsafe
  · exact .inr (mem_rolled.mp hrolled)

/-- No block of a roll outlives it, in any run that lets no group go while a roll still blocks
its entry. -/
theorem noneForgotten_of_reaches {s : Watched} (h : Reaches (step proto) ReleasesFirst Started s) :
    s.NoneForgotten := by
  have hboth : s.NoneForgotten ∧ s.world.FairBut none := by
    refine h.invariant (fun s hs => ?_) fun s e t hi hok hs => noneForgotten_step hi.1 hi.2 hok hs
    obtain ⟨⟨hrolls, -, hsize, -⟩, hnone⟩ := hs
    refine ⟨fun x hx => ?_, hsize, fun r hr => ?_, fun r hr => ?_⟩
    · rw [hnone] at hx
      cases hx
    · rw [hrolls] at hr
      exact absurd hr List.not_mem_nil
    · rw [hrolls] at hr
      exact absurd hr List.not_mem_nil
  exact hboth.1

section Samples

def samplePair : Watched := ⟨World.samplePair, []⟩

theorem samplePair_started : samplePair.Started := ⟨World.samplePair_started, rfl⟩

instance (s : Watched) : ∀ e, Decidable (s.ReleasesFirst e)
  | .disband => inferInstanceAs (Decidable s.world.AllReleased)
  | .removeMember .. => inferInstanceAs (Decidable (_ ∨ s.world.AllReleased))
  | .fillLoot .. | .fillNotNormalLootFor .. | .groupLoot .. | .needBeforeGreed .. | .masterLoot .. |
    .storeLootItem .. | .masterGive .. | .addMember .. | .setLootMethod .. | .endRoll .. |
    .clear .. | .lootRoll .. => isTrue trivial

/-- A roll starts and its timer counts it, then another one starts; the group goes when that one
is over too. -/
theorem noneForgotten_of_reaches_disbanded : ∃ s, Reaches (step ordinary) ReleasesFirst Started s ∧
    s.world.members = [] ∧ s.NoneForgotten := by
  obtain ⟨s, hs, h⟩ := Reaches.exists_of_replay (step ordinary) ReleasesFirst samplePair_started
    [.fillLoot 0 (sampleFilling .groupLoot), .groupLoot 0 World.sampleLooters,
      .lootRoll 1 1 ROLL_NEED World.sampleEvaluation, .endRoll 0 fun _ => World.sampleEvaluation,
      .disband]
    (by decide +kernel) (fun s => decide (s.world.members = [])) (by decide +kernel)
  exact ⟨s, hs, of_decide_eq_true h, noneForgotten_of_reaches hs⟩

/-- The group disbands while its first roll runs: the entry stays blocked, and no roll is left to
release it. -/
theorem disband_forgets : ¬ ∀ proto s, Reaches (step proto) anyStep Started s → s.NoneForgotten := by
  intro hall
  obtain ⟨s, hs, h⟩ := Reaches.exists_of_replay (step ordinary) anyStep samplePair_started
    [.fillLoot 0 (sampleFilling .groupLoot), .groupLoot 0 World.sampleLooters, .disband]
    (replayOk_anyStep ..)
    (fun s => decide ((0, Place.item 0) ∈ s.blockedByRoll ∧ s.world.rolls.rows = [] ∧
      ∀ item ∈ (s.world.loots 0).entry (.item 0), item.isLooted = false))
    (by decide +kernel)
  obtain ⟨hblocked, hrolls, hfree⟩ := of_decide_eq_true h
  obtain ⟨item, hitem, hlooted | ⟨r, hr, -⟩⟩ := hall ordinary s hs _ hblocked
  · rw [hfree item hitem] at hlooted
    cases hlooted
  · have hmem : r ∈ s.world.rolls.rows := hr
    rw [hrolls] at hmem
    cases hmem

end Samples

end Watched

end HysteriaCore.Looting

import HysteriaCore.Looting.Lists
import HysteriaCore.Looting.Tally

/-!
# The end of a roll releases its entry

A vote that leaves entries as they are or eases them: what is looted stays
looted, and nothing gets blocked. The count of a roll releases the entry it was
about, unless all voters are gone while a vote for need or greed is still in the
totals; votes and leavers never bring that about.
-/

namespace HysteriaCore.Looting
open Lib

namespace LootItem

def Stays (item item' : LootItem) : Prop := item.isLooted = true → item'.isLooted = true

def Eases (item item' : LootItem) : Prop :=
  item.Stays item' ∧ (item'.isBlocked = true → item.isBlocked = true)

def Same (item item' : LootItem) : Prop :=
  item'.isLooted = item.isLooted ∧ item'.itemid = item.itemid

theorem Stays.refl (item : LootItem) : item.Stays item := id

variable {x y z : LootItem}

theorem Stays.trans (h : x.Stays y) (h' : y.Stays z) : x.Stays z := h' ∘ h

theorem Same.refl (item : LootItem) : item.Same item := ⟨rfl, rfl⟩

theorem Same.trans (h : x.Same y) (h' : y.Same z) : x.Same z :=
  ⟨h'.1.trans h.1, h'.2.trans h.2⟩

theorem Same.stays {x y : LootItem} (h : x.Same y) : x.Stays y := h.1.trans

theorem Eases.refl (item : LootItem) : item.Eases item := ⟨id, id⟩

theorem Eases.trans (h : x.Eases y) (h' : y.Eases z) : x.Eases z :=
  ⟨h'.1 ∘ h.1, h.2 ∘ h'.2⟩

end LootItem

namespace Loot

/-- The entries of a loot come from those of another one, each in its place. -/
structure Via (R : LootItem → LootItem → Prop) (loot loot' : Loot) : Prop where
  length : loot'.items.length = loot.items.length
  entry : ∀ p item', loot'.entry p = some item' → ∃ item, loot.entry p = some item ∧ R item item'

def Released (loot : Loot) (p : Place) : Prop :=
  ∀ item ∈ loot.entry p, item.isBlocked = true → item.isLooted = true

instance (loot : Loot) (p : Place) : Decidable (loot.Released p) :=
  inferInstanceAs (Decidable (∀ _ ∈ _, _))

variable {R : LootItem → LootItem → Prop} {loot loot' loot'' : Loot} {p : Place}

theorem Via.refl (hR : ∀ item, R item item) (loot : Loot) : loot.Via R loot :=
  ⟨rfl, fun _ item h => ⟨item, h, hR item⟩⟩

theorem Via.trans (hR : ∀ {x y z}, R x y → R y z → R x z) (h : loot.Via R loot')
    (h' : loot'.Via R loot'') : loot.Via R loot'' := by
  refine ⟨h'.length.trans h.length, fun p item'' hitem'' => ?_⟩
  obtain ⟨item', hitem', hr'⟩ := h'.entry p item'' hitem''
  obtain ⟨item, hitem, hr⟩ := h.entry p item' hitem'
  exact ⟨item, hitem, hR hr hr'⟩

theorem Via.mono {R' : LootItem → LootItem → Prop} (hR : ∀ x y, R x y → R' x y)
    (h : loot.Via R loot') : loot.Via R' loot' := by
  refine ⟨h.length, fun p item' hitem' => ?_⟩
  obtain ⟨item, hitem, hr⟩ := h.entry p item' hitem'
  exact ⟨item, hitem, hR _ _ hr⟩

theorem Via.of_map (f : Place → LootItem → LootItem) (hf : ∀ p item, R item (f p item))
    (hlength : loot'.items.length = loot.items.length)
    (hentry : ∀ p, loot'.entry p = (loot.entry p).map (f p)) : loot.Via R loot' := by
  refine ⟨hlength, fun p item' hitem' => ?_⟩
  rw [hentry] at hitem'
  obtain ⟨item, hitem, rfl⟩ := Option.map_eq_some_iff.mp hitem'
  exact ⟨item, hitem, hf p item⟩

theorem length_edit (loot : Loot) (f : LootItem → LootItem) (p : Place) :
    (loot.edit f p).items.length = loot.items.length := by
  cases p with
  | item i => exact List.length_modify ..
  | quest i => rfl

variable {f : LootItem → LootItem}

theorem Via.edit (hR : ∀ item, R item item) (hf : ∀ item, R item (f item))
    (p : Place) : loot.Via R (loot.edit f p) := by
  refine .of_map (fun p' item => if p = p' then f item else item) (fun p' item => ?_)
    (length_edit loot f p) fun p' => ?_
  · split
    · exact hf item
    · exact hR item
  · rw [entry_edit]
    split
    · rfl
    · exact Option.map_id'.symm

theorem placeOf_via (h : loot.Via R loot') (slot : ℕ) : loot'.placeOf slot = loot.placeOf slot := by
  rw [placeOf, placeOf, h.length]

theorem Released.eases (h : loot.Released p) (hvia : loot.Via LootItem.Eases loot') :
    loot'.Released p := by
  intro item' hitem' hblocked
  obtain ⟨item, hitem, hstays, heases⟩ := hvia.entry p item' hitem'
  exact hstays (h item hitem (heases hblocked))

theorem released_edit
    (hf : ∀ item, (f item).isBlocked = true → (f item).isLooted = true) :
    (loot.edit f p).Released p := by
  intro item hitem hblocked
  rw [Option.mem_def, entry_edit, if_pos rfl] at hitem
  obtain ⟨x, -, rfl⟩ := Option.map_eq_some_iff.mp hitem
  exact hf x hblocked

/-! ### The ways out of a loot -/

theorem eases_markLooted (item : LootItem) : item.Eases item.markLooted := ⟨fun _ => rfl, id⟩
theorem eases_markGiven (item : LootItem) : item.Eases (markGiven item) := ⟨fun _ => rfl, id⟩
theorem eases_unblock (item : LootItem) : item.Eases (unblock item) := ⟨id, fun h => by cases h⟩

theorem eases_markReserved (guid : ℕ) (item : LootItem) : item.Eases (markReserved guid item) :=
  ⟨id, fun h => by cases h⟩

theorem Via.giveAway (hf : ∀ item : LootItem, item.Eases (f item))
    (p : Place) : loot.Via LootItem.Eases (loot.giveAway f p) := by
  have hedit : loot.Via LootItem.Eases (loot.edit f p) := .edit .refl hf p
  exact ⟨hedit.length, hedit.entry⟩

theorem Via.handOver (h : loot.Via R loot') (p : Place) (guid : ℕ) (item : LootItem) :
    loot.Via R (loot'.handOver p guid item) := ⟨h.length, h.entry⟩

theorem Via.take (loot : Loot) (guid : ℕ) (f : Found) : loot.Via LootItem.Eases (loot.take guid f) := by
  refine .of_map (fun p item => if f.place = p ∧ f.item.freeforall = false then item.markLooted
    else item) (fun p item => ?_) ?_ fun p => ?_
  · split
    · exact eases_markLooted item
    · exact .refl item
  · have hown : (loot.takeOwn guid f.own).items.length = loot.items.length := by
      rcases f.own with _ | own
      · rfl
      · cases own <;> rfl
    rw [Loot.take]
    cases f.item.freeforall with
    | true => exact hown
    | false => exact (length_edit _ _ _).trans hown
  · rw [entry_take]
    split
    · rfl
    · exact Option.map_id'.symm

theorem Via.storeLootItem (proto : ℕ → Option ItemTemplate) (loot : Loot) (guid : ℕ) (a : Answers)
    (lootSlot : ℕ) : loot.Via LootItem.Eases (loot.storeLootItem proto guid a lootSlot) := by
  rw [Loot.storeLootItem]
  cases loot.grant proto guid a lootSlot with
  | none => exact .refl .refl loot
  | some f =>
    dsimp only
    split
    · exact (Via.take loot guid f).handOver ..
    · exact .refl .refl loot

theorem Via.masterGive (proto : ℕ → Option ItemTemplate) (loot : Loot) (target : ℕ) (a : Answers)
    (slotid : ℕ) : loot.Via LootItem.Eases (loot.masterGive proto target a slotid) := by
  rw [Loot.masterGive]
  dsimp only
  split
  · exact .refl .refl loot
  · cases loot.entry (loot.placeOf slotid) with
    | none => exact .refl .refl loot
    | some item =>
      have hgive := @Via.handOver _ loot _ (.giveAway eases_markGiven (loot.placeOf slotid))
        (loot.placeOf slotid) target item
      dsimp only
      split_ifs
      all_goals first | exact hgive | exact .refl .refl loot

theorem Via.award (loot : Loot) (r : Roll) (guid : ℕ) (e : Evaluation) :
    loot.Via LootItem.Eases (loot.award r guid e) := by
  rw [Loot.award]
  cases loot.entry (loot.placeOf r.itemSlot) with
  | none => exact .refl .refl loot
  | some item =>
    dsimp only
    split
    · exact (Via.giveAway eases_markLooted _).handOver ..
    · exact .edit .refl (eases_markReserved guid) _

theorem released_award (loot : Loot) (r : Roll) (guid : ℕ) (e : Evaluation) :
    (loot.award r guid e).Released (loot.placeOf r.itemSlot) := by
  rw [Loot.award]
  cases hentry : loot.entry (loot.placeOf r.itemSlot) with
  | none =>
    intro item hitem
    rw [hentry] at hitem
    cases hitem
  | some item =>
    dsimp only
    split
    · have hedit : (loot.edit LootItem.markLooted (loot.placeOf r.itemSlot)).Released _ :=
        released_edit fun _ _ => rfl
      exact hedit
    · exact released_edit fun _ h => by cases h

/-! ### What is listed and blocked otherwise -/

theorem Via.of_picked {loot' : Loot} {m : LootItem → LootItem}
    (hmark : ∀ item : LootItem, item.Same (m item)) (ql ql' : List (LootItem × ℕ)) (hitems : loot'.items = markPicked ql m loot.items)
    (hquest : loot'.questItems = markPicked ql' m loot.questItems) : loot.Via LootItem.Same loot' := by
  refine .of_map (fun p item => p.casesOn (fun i => if (item, i) ∈ ql then m item else item)
    fun i => if (item, i) ∈ ql' then m item else item) (fun p item => ?_) ?_ fun p => ?_
  · cases p with
    | item i =>
      dsimp only
      split
      · exact hmark item
      · exact .refl item
    | quest i =>
      dsimp only
      split
      · exact hmark item
      · exact .refl item
  · rw [hitems, markPicked, List.length_map, List.length_zipIdx]
  · cases p with
    | item i => exact (congrArg (·[i]?) hitems).trans (markPicked_getElem? ..)
    | quest i => exact (congrArg (·[i]?) hquest).trans (markPicked_getElem? ..)

theorem markPicked_nil (mark : LootItem → LootItem) (items : List LootItem) :
    markPicked [] mark items = items := by
  simp [markPicked]

theorem Via.fillLists (proto : ℕ → Option ItemTemplate) (loot : Loot) (guid : ℕ) (a : Answers) :
    loot.Via LootItem.Same (loot.fillLists proto guid a) := by
  have hquest : ∀ l : Loot, l.Via LootItem.Same (l.fillQuestLootOnce proto guid a) := by
    intro l
    rw [fillQuestLootOnce]
    split
    · exact .refl .refl l
    · rw [fillQuestLoot]
      split
      · exact .refl .refl l
      · split
        · exact .of_picked (m := LootItem.markBlocked) (fun _ => ⟨rfl, rfl⟩) [] (l.questPicks proto guid a)
            (markPicked_nil ..).symm rfl
        · exact .of_picked (m := LootItem.markBlocked) (fun _ => ⟨rfl, rfl⟩) [] []
            (markPicked_nil ..).symm (markPicked_nil ..).symm
  have hffa : ∀ l : Loot, l.Via LootItem.Same (l.fillFFALootOnce proto guid a) := by
    intro l
    rw [fillFFALootOnce]
    split
    · exact .refl .refl l
    · rw [fillFFALoot]
      split <;> exact ⟨rfl, fun _ item h => ⟨item, h, .refl item⟩⟩
  have hcond : ∀ l : Loot, l.Via LootItem.Same (l.fillConditionalLootOnce proto guid a) := by
    intro l
    rw [fillConditionalLootOnce]
    split
    · exact .refl .refl l
    · rw [fillConditionalLoot]
      split
      · exact .refl .refl l
      · exact .of_picked (m := LootItem.markCounted) (fun _ => ⟨rfl, rfl⟩)
          (l.conditionalPicks proto guid a) [] rfl (markPicked_nil ..).symm
  rw [Loot.fillLists]
  exact ((hquest loot).trans .trans (hffa _)).trans .trans (hcond _)

theorem Via.fillNotNormalLootFor (proto : ℕ → Option ItemTemplate) (loot : Loot) (v : Visitor) :
    loot.Via LootItem.Stays (loot.fillNotNormalLootFor proto v) := by
  have hlists := (Via.fillLists proto loot v.guid (v.answers 0)).mono fun _ _ h => h.stays
  rw [Loot.fillNotNormalLootFor]
  split
  · refine foldl_invariant (I := fun l => loot.Via LootItem.Stays l) (fun l i hl => ?_) _ hlists
    rw [storeCurrency]
    split
    · exact hl.trans .trans ((Via.storeLootItem ..).mono fun _ _ h => h.1)
    · exact hl
  · exact hlists

def blockAt (p : Place) (item : LootItem) : LootItem :=
  match p with
  | .item _ => if item.freeforall then item else { item with isBlocked := !item.isUnderthreshold }
  | .quest _ => if item.followLootRules then { item with isBlocked := !item.isUnderthreshold } else item

theorem Via.masterLoot (loot : Loot) : loot.Via LootItem.Stays loot.masterLoot := by
  refine .of_map blockAt (fun p item => ?_) (List.length_map ..) fun p => ?_
  · cases p <;> dsimp only [blockAt] <;> split <;> exact fun h => h
  · cases p <;> exact List.getElem?_map ..

end Loot

namespace Roll

/-! ### Counting -/

def Settling (r : Roll) : Prop := r.playerVote.rows = [] → r.totalNeed = 0 ∧ r.totalGreed = 0

/-- What the phases of a count keep, and that one of them has released the entry if need or greed
is still in the totals. -/
structure Counted (r : Roll) (loot : Loot) (s : Roll × Loot) : Prop where
  itemSlot : s.1.itemSlot = r.itemSlot
  playerVote : s.1.playerVote = r.playerVote
  via : loot.Via LootItem.Eases s.2

variable {r : Roll} {loot : Loot} {s : Roll × Loot}

theorem Counted.place (h : Counted r loot s) : s.2.placeOf s.1.itemSlot = loot.placeOf r.itemSlot := by
  rw [h.itemSlot, Loot.placeOf_via h.via]

theorem counted_countNeed (e : Evaluation) : Counted r loot (countNeed e (r, loot)) := by
  rw [countNeed]
  split
  · dsimp only
    split
    · exact ⟨rfl, rfl, .award ..⟩
    · exact ⟨rfl, rfl, .refl .refl loot⟩
  · exact ⟨rfl, rfl, .refl .refl loot⟩

theorem counted_countGreed (h : Counted r loot s) (e : Evaluation) :
    Counted r loot (countGreed e s) := by
  have htrans : ∀ {l : Loot}, s.2.Via LootItem.Eases l → loot.Via LootItem.Eases l :=
    fun h' => h.via.trans .trans h'
  rw [countGreed]
  split
  · dsimp only
    split
    · refine ⟨h.itemSlot, h.playerVote, htrans ?_⟩
      dsimp only
      split
      · exact .award ..
      · exact .giveAway Loot.eases_markLooted _
    · exact ⟨h.itemSlot, h.playerVote, h.via⟩
  · exact h

theorem released_countNeed (h : r.Settling) (e : Evaluation) :
    (countNeed e (r, loot)).2.Released (loot.placeOf r.itemSlot) ∨
      (countNeed e (r, loot)).1.totalNeed = 0 ∧
        (countNeed e (r, loot)).1.totalGreed = r.totalGreed := by
  rw [countNeed]
  split
  · dsimp only
    split
    · exact .inl (Loot.released_award _ _ _ _)
    · exact .inr ⟨rfl, rfl⟩
  · rename_i hno
    right
    refine ⟨?_, rfl⟩
    by_cases hvotes : r.playerVote.rows = []
    · exact (h hvotes).1
    · simpa [hvotes] using hno

theorem released_countGreed (h : s.1.playerVote.rows = [] → s.1.totalGreed = 0)
    (hneed : s.1.totalNeed = 0) (e : Evaluation) :
    (countGreed e s).2.Released (s.2.placeOf s.1.itemSlot) ∨
      (countGreed e s).1.totalNeed = 0 ∧ (countGreed e s).1.totalGreed = 0 := by
  rw [countGreed]
  split
  · dsimp only
    split
    · left
      dsimp only
      split
      · exact Loot.released_award _ _ _ _
      · have hedit : (s.2.edit LootItem.markLooted (s.2.placeOf s.1.itemSlot)).Released _ :=
          Loot.released_edit fun _ _ => rfl
        exact hedit
    · exact .inr ⟨hneed, rfl⟩
  · rename_i hno
    right
    refine ⟨hneed, ?_⟩
    by_cases hvotes : s.1.playerVote.rows = []
    · exact h hvotes
    · simpa [hneed, hvotes] using hno

theorem via_countPass (h : Counted r loot s) : loot.Via LootItem.Eases (countPass s) := by
  rw [countPass]
  split
  · exact h.via.trans .trans (.edit .refl Loot.eases_unblock _)
  · exact h.via

theorem released_count (h : r.Settling) (e : Evaluation) :
    (countPass (countGreed e (countNeed e (r, loot)))).Released (loot.placeOf r.itemSlot) := by
  have hneed : Counted r loot (countNeed e (r, loot)) := counted_countNeed e
  have hgreed := counted_countGreed hneed e
  have heases : ∀ s, Loot.Via LootItem.Eases s.2 (countPass s) := fun s =>
    via_countPass ⟨rfl, rfl, .refl .refl s.2⟩
  rcases released_countNeed h e with hreleased | ⟨hnone, hsame⟩
  · have hvia := counted_countGreed (r := (countNeed e (r, loot)).1) (s := countNeed e (r, loot))
      ⟨rfl, rfl, .refl .refl _⟩ e
    exact (hreleased.eases hvia.via).eases (heases _)
  · have hempty : (countNeed e (r, loot)).1.playerVote.rows = [] →
        (countNeed e (r, loot)).1.totalGreed = 0 := by
      rw [hneed.playerVote, hsame]
      exact fun hvotes => (h hvotes).2
    rcases released_countGreed hempty hnone e with hreleased | hnobody
    · rw [← hneed.place]
      exact hreleased.eases (heases _)
    · rw [countPass, if_pos hnobody, ← hgreed.place]
      exact Loot.released_edit fun _ hblocked => by cases hblocked

/-! ### Votes and leavers -/

structure Counts (r : Roll) : Prop where
  size : r.playerVote.size ≤ MAXRAIDSIZE
  valid : r.votes isValid = r.playerVote.size
  rolling : r.totalPlayersRolling.toNat = r.playerVote.size
  pass : r.votes forPass ≤ r.totalPass.toNat
  need : r.votes forNeed ≤ r.totalNeed.toNat
  greed : r.votes forGreed ≤ r.totalGreed.toNat

/-- A roll that was not counted: nobody voted for need or greed, or some votes are missing. -/
structure Fair (r : Roll) : Prop extends r.Counts where
  few : r.totalPass.toNat ≤ MAXRAIDSIZE
  waiting : (r.totalNeed = 0 ∧ r.totalGreed = 0) ∨ r.complete = false

theorem waits_of_not_complete (h : r.complete = false) :
    r.totalPass.toNat + r.totalNeed.toNat + r.totalGreed.toNat < r.totalPlayersRolling.toNat := by
  simpa [complete] using h

theorem Counts.fair (h : r.Counts) (hwait : r.complete = false) : r.Fair := by
  have hlt := waits_of_not_complete hwait
  have hrolling := h.rolling
  have hsize := h.size
  exact ⟨h, by omega, .inr hwait⟩

theorem Fair.settling (h : r.Fair) : r.Settling := by
  intro hvotes
  rcases h.waiting with hzero | hwait
  · exact hzero
  · have hlt := waits_of_not_complete hwait
    have hrolling := h.rolling
    have hsize : r.playerVote.size = 0 := by simp [KeyedList.size, hvotes]
    omega

theorem Counts.cast (h : r.Counts) {guid : ℕ} {v : PlayerVote} (hv : r.playerVote.find? guid = some v)
    {x : RollVote} (hvalid : isValid x = true) {r' : Roll} (hset : r'.playerVote = (r.setVote guid x).playerVote)
    (hp : r'.totalPass.toNat = r.totalPass.toNat + if forPass x then 1 else 0)
    (hn : r'.totalNeed.toNat = r.totalNeed.toNat + if forNeed x then 1 else 0)
    (hg : r'.totalGreed.toNat = r.totalGreed.toNat + if forGreed x then 1 else 0)
    (hr : r'.totalPlayersRolling = r.totalPlayersRolling) : r'.Counts := by
  have hvotes : ∀ p, r'.votes p ≤ r.votes p + if p x then 1 else 0 := by
    intro p
    have hsum := votes_setVote hv x p
    have heq : r'.votes p = (r.setVote guid x).votes p := by rw [votes, votes, hset]
    omega
  have hsize : r'.playerVote.size = r.playerVote.size := by rw [hset, size_setVote]
  have hsame : r'.votes isValid = r'.playerVote.size := by
    have hsum := votes_setVote hv x isValid
    have hall := List.countP_eq_length.mp h.valid v ((r.playerVote.find?_eq_some_iff _ _).mp hv).1
    rw [hall, hvalid, h.valid] at hsum
    have heq : r'.votes isValid = (r.setVote guid x).votes isValid := by rw [votes, votes, hset]
    omega
  refine ⟨hsize ▸ h.size, hsame, by rw [hr, hsize, h.rolling], ?_, ?_, ?_⟩
  · rw [hp]
    exact (hvotes forPass).trans (Nat.add_le_add_right h.pass _)
  · rw [hn]
    exact (hvotes forNeed).trans (Nat.add_le_add_right h.need _)
  · rw [hg]
    exact (hvotes forGreed).trans (Nat.add_le_add_right h.greed _)

theorem Fair.small (h : r.Fair) :
    r.totalPass.toNat < 255 ∧ r.totalNeed.toNat < 255 ∧ r.totalGreed.toNat < 255 := by
  have hfew : r.totalPass.toNat ≤ 40 := h.few
  rcases h.waiting with ⟨hneed, hgreed⟩ | hwait
  · simp only [hneed, hgreed]
    exact ⟨by omega, by decide, by decide⟩
  · have hlt := waits_of_not_complete hwait
    have hrolling := h.rolling
    have hsize : r.playerVote.size ≤ 40 := h.size
    omega

theorem Fair.choose (h : r.Fair) {guid choice : ℕ}
    (hin : choice < MAX_ROLL_TYPE → ∃ v, r.playerVote.find? guid = some v) :
    (r.choose guid choice).Counts ∧ (r.choose guid choice).Settling := by
  obtain ⟨hp, hn, hg⟩ := h.small
  by_cases hlow : choice < MAX_ROLL_TYPE
  · obtain ⟨v, hv⟩ := hin hlow
    have hcounts : (r.choose guid choice).Counts := by
      rw [Roll.choose]
      split_ifs
      · exact h.toCounts.cast hv (x := .pass) rfl rfl (toNat_succ hp) rfl rfl rfl
      · exact h.toCounts.cast hv (x := .need) rfl rfl rfl (toNat_succ hn) rfl rfl
      · exact h.toCounts.cast hv (x := .greed) rfl rfl rfl rfl (toNat_succ hg) rfl
      · exact h.toCounts.cast hv (x := .disenchant) rfl rfl rfl rfl (toNat_succ hg) rfl
      · exact h.toCounts
    refine ⟨hcounts, fun hvotes => ?_⟩
    -- the voter is in the map
    have hpos : 0 < r.playerVote.size :=
      List.length_pos_of_mem ((r.playerVote.find?_eq_some_iff _ _).mp hv).1
    have hrolling : (r.choose guid choice).totalPlayersRolling = r.totalPlayersRolling := by
      unfold Roll.choose
      split_ifs <;> rfl
    have hsize : (r.choose guid choice).playerVote.size = 0 := by simp [KeyedList.size, hvotes]
    have hnew := hcounts.rolling
    rw [hrolling, h.rolling] at hnew
    omega
  · have hne : ∀ n < MAX_ROLL_TYPE, choice ≠ n := fun n hn hc => hlow (hc ▸ hn)
    rw [Roll.choose, if_neg (hne _ (by decide)), if_neg (hne _ (by decide)),
      if_neg (hne _ (by decide)), if_neg (hne _ (by decide))]
    exact ⟨h.toCounts, h.settling⟩

theorem le_toNat_leave {x : UInt8} {m n : ℕ} {b : Bool} {c : Prop} [Decidable c] (hc : c ↔ b = true)
    (hx : n ≤ x.toNat) (hn : m + (if b then 1 else 0) = n) :
    m ≤ (if c then x - 1 else x).toNat ∧ (if c then x - 1 else x).toNat ≤ x.toNat ∧
      (x = 0 → (if c then x - 1 else x) = 0) := by
  have hleave := toNat_leave hc hx hn
  refine ⟨by omega, by omega, fun hzero => UInt8.toNat_inj.mp ?_⟩
  have hx0 := congrArg UInt8.toNat hzero
  have h0 : (0 : UInt8).toNat = 0 := rfl
  omega

theorem Fair.leave (h : r.Fair) {v : PlayerVote} (hv : v ∈ r.playerVote) :
    (r.leave v).Counts ∧ (r.leave v).Settling ∧ (r.leave v).totalPass.toNat ≤ MAXRAIDSIZE ∧
      (r.totalNeed = 0 ∧ r.totalGreed = 0 → (r.leave v).totalNeed = 0 ∧ (r.leave v).totalGreed = 0) := by
  have hvotes := votes_leave hv
  have hsize : (r.leave v).playerVote.size + 1 = r.playerVote.size := r.playerVote.size_erase_of_mem hv
  have hle := h.size
  have hall := List.countP_eq_length.mp h.valid v hv
  obtain ⟨hp, hp', -⟩ := le_toNat_leave (c := v.vote = .pass) (by simp [forPass]) h.pass (hvotes forPass)
  obtain ⟨hn, -, hn0⟩ := le_toNat_leave (c := v.vote = .need) (by simp [forNeed]) h.need (hvotes forNeed)
  obtain ⟨hg, -, hg0⟩ := le_toNat_leave
    (c := v.vote = .greed ∨ v.vote = .disenchant) (by simp [forGreed]) h.greed (hvotes forGreed)
  have hzero : r.totalNeed = 0 ∧ r.totalGreed = 0 →
      (r.leave v).totalNeed = 0 ∧ (r.leave v).totalGreed = 0 := fun hz => ⟨hn0 hz.1, hg0 hz.2⟩
  have hrolling : (r.leave v).totalPlayersRolling.toNat = (r.leave v).playerVote.size := by
    have hvalid : v.vote ≠ .notValid := by simpa [isValid] using hall
    have hpred := toNat_pred (x := r.totalPlayersRolling) (by rw [h.rolling]; omega)
    have hr := h.rolling
    simp only [Roll.leave, if_pos hvalid] at hsize ⊢
    omega
  refine ⟨⟨by omega, ?_, hrolling, hp, hn, hg⟩, fun hnobody => hzero ?_, hp'.trans h.few, hzero⟩
  · have hsum := hvotes isValid
    rw [hall, if_pos rfl, h.valid] at hsum
    omega
  · -- the last voter goes: a roll that waits for a vote has nothing in its totals
    rcases h.waiting with hz | hwait
    · exact hz
    · have hlt := waits_of_not_complete hwait
      have hr := h.rolling
      have hone : (r.leave v).playerVote.size = 0 := by simp [KeyedList.size, hnobody]
      have hneed : r.totalNeed.toNat = 0 := by omega
      have hgreed : r.totalGreed.toNat = 0 := by omega
      exact ⟨UInt8.toNat_inj.mp hneed, UInt8.toNat_inj.mp hgreed⟩

theorem Sound.fair (h : r.Sound) (hneed : r.totalNeed = 0) (hgreed : r.totalGreed = 0) : r.Fair := by
  have hpass := (r.votes_le forPass).trans h.size
  refine ⟨⟨h.size, h.valid, by rw [h.tally.rolling, h.valid], h.tally.pass.ge, h.tally.need.ge,
    h.tally.greed.ge⟩, by rw [h.tally.pass]; exact hpass, .inl ⟨hneed, hgreed⟩⟩

theorem totals_enterAll (proto : ℕ → Option ItemTemplate) (looters : List Looter) (item : LootItem)
    (autoPass : Bool) (r : Roll) :
    (World.enterAll proto looters item autoPass r).totalNeed = r.totalNeed ∧
      (World.enterAll proto looters item autoPass r).totalGreed = r.totalGreed := by
  refine foldl_invariant (I := fun r' : Roll => r'.totalNeed = r.totalNeed ∧
    r'.totalGreed = r.totalGreed) (fun r' l hr' => ?_) looters ⟨rfl, rfl⟩
  split <;> exact hr'

end Roll

end HysteriaCore.Looting

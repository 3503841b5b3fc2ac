import HysteriaCore.Inventory.Swapping

/-!
# Paying with items

`HasItemCount` and `DestroyItemCount` walk over the same slots in different orders, with a running count
in 32 bits. Items in trade stay out of both. The effects of a destroyed item on auras, quests and the
visible equipment are left out.
-/

namespace HysteriaCore.Inventory
open Lib

def MAX_BAG_SIZE : ℕ := 36

namespace Player
variable (t : Templates) (inTrade : Guid → Bool) (p : Player)

def ownPositions (slot_begin slot_end : ℕ) : List (ℕ × ℕ) :=
  (List.range' slot_begin (slot_end - slot_begin)).map fun slot => (INVENTORY_SLOT_BAG_0, slot)

def bagPositions (bag : ℕ) : List (ℕ × ℕ) :=
  match p.GetBagByPos t bag with
  | none => []
  | some b => (List.range (p.GetBagSize t b)).map fun slot => (bag, slot)

def counted (e : ℕ) (pos : ℕ × ℕ) : Option Guid :=
  (p.GetItemByPos t pos.1 pos.2).filter fun g => decide ((p.items g).entry = e) && !inTrade g

/-! ### `HasItemCount` -/

def countSlot (e n : ℕ) (s : ℕ × Bool) (pos : ℕ × ℕ) : ℕ × Bool :=
  if s.2 then s
  else match p.counted t inTrade e pos with
    | none => s
    | some g => (u32 (s.1 + (p.items g).count), decide (n ≤ u32 (s.1 + (p.items g).count)))

def hasItemPositions (inBankAlso : Bool) : List (ℕ × ℕ) :=
  ownPositions 0 INVENTORY_SLOT_ITEM_END ++ ownPositions KEYRING_SLOT_START CURRENCYTOKEN_SLOT_END ++
    inventoryBags.flatMap (p.bagPositions t) ++
    if inBankAlso then ownPositions BANK_SLOT_ITEM_START BANK_SLOT_ITEM_END ++ bankBags.flatMap (p.bagPositions t)
    else []

def HasItemCount (e n : ℕ) (inBankAlso : Bool) : Bool :=
  ((p.hasItemPositions t inBankAlso).foldl (p.countSlot t inTrade e n) (0, false)).2

/-! ### `DestroyItemCount` -/

def removeDestroyed (bag slot : ℕ) (g : Guid) : Player :=
  let p :=
    if bag = INVENTORY_SLOT_BAG_0 then p.clearPlace (.own slot)
    else match p.GetBagByPos t bag with
      | none => p
      | some b => p.bagRemoveItem b slot
  (p.modifyItem g fun i => { i with contained := 0, slot := NULL_SLOT }).discard g

/-- `DestroyItem`, with what a bag holds first; `depth` bounds the bags within bags. -/
def DestroyItem : ℕ → Player → ℕ → ℕ → Player
  | 0, p, _, _ => p
  | depth + 1, p, bag, slot =>
    match p.GetItemByPos t bag slot with
    | none => p
    | some g =>
      let p := if p.IsNotEmptyBag t g then (List.range MAX_BAG_SIZE).foldl (fun p i => DestroyItem depth p slot i) p
        else p
      p.removeDestroyed t bag slot g

/-- The player, `remcount`, and whether the function has returned. -/
structure Paying where
  player : Player
  remcount : ℕ
  done : Bool

def payAt (e n : ℕ) (s : Paying) (pos : ℕ × ℕ) : Paying :=
  if s.done then s
  else match s.player.counted t inTrade e pos with
    | none => s
    | some g =>
      let count := (s.player.items g).count
      if u32 (count + s.remcount) ≤ n then
        ⟨DestroyItem t 2 s.player pos.1 pos.2, u32 (s.remcount + count), decide (n ≤ u32 (s.remcount + count))⟩
      else ⟨s.player.SetCount g (u32 (count + 2 ^ 32 - n + s.remcount)), s.remcount, true⟩

def paySlots (e n slot_begin slot_end : ℕ) (s : Paying) : Paying :=
  (ownPositions slot_begin slot_end).foldl (payAt t inTrade e n) s

def payBags (e n : ℕ) (bags : List ℕ) (s : Paying) : Paying :=
  bags.foldl (fun s bag => (s.player.bagPositions t bag).foldl (payAt t inTrade e n) s) s

def DestroyItemCount (e n : ℕ) : Player :=
  let s := paySlots t inTrade e n INVENTORY_SLOT_ITEM_START INVENTORY_SLOT_ITEM_END ⟨p, 0, false⟩
  let s := paySlots t inTrade e n KEYRING_SLOT_START CURRENCYTOKEN_SLOT_END s
  let s := payBags t inTrade e n inventoryBags s
  let s := paySlots t inTrade e n 0 INVENTORY_SLOT_BAG_END s
  let s := paySlots t inTrade e n BANK_SLOT_ITEM_START BANK_SLOT_ITEM_END s
  (payBags t inTrade e n bankBags s).player

/-! ### What a payment is -/

def payable (e : ℕ) (g : Guid) : ℕ :=
  if (p.items g).entry = e ∧ inTrade g = false then (p.items g).count else 0

def outside (e : ℕ) : ℕ := (p.slots.rows.map fun s => p.payable inTrade e s.item).sum

def Untouched (p q : Player) (g : Guid) : Prop :=
  q.items g = p.items g ∧ ∀ place, q.at? place = some g ↔ p.at? place = some g

structure PaysExactly (e n : ℕ) : Prop where
  lowered : (p.DestroyItemCount t inTrade e n).outside inTrade e + n = p.outside inTrade e
  untouched : ∀ g, (p.items g).entry ≠ e ∨ inTrade g = true → Untouched p (p.DestroyItemCount t inTrade e n) g
  noEmpty : ∀ place g, (p.DestroyItemCount t inTrade e n).at? place = some g →
    1 ≤ ((p.DestroyItemCount t inTrade e n).items g).count

def stackAt (e : ℕ) (pos : ℕ × ℕ) : Option ℕ := (p.counted t inTrade e pos).map fun g => (p.items g).count

def destroyPositions : List (ℕ × ℕ) :=
  ownPositions INVENTORY_SLOT_ITEM_START INVENTORY_SLOT_ITEM_END ++
    (ownPositions KEYRING_SLOT_START CURRENCYTOKEN_SLOT_END ++
      (inventoryBags.flatMap (p.bagPositions t) ++
        (ownPositions 0 INVENTORY_SLOT_BAG_END ++
          (ownPositions BANK_SLOT_ITEM_START BANK_SLOT_ITEM_END ++ bankBags.flatMap (p.bagPositions t)))))

def stackCounts (e : ℕ) : List ℕ := (p.destroyPositions t).filterMap (p.stackAt t inTrade e)

end Player

/-! ### The remainder -/

def paidOut (n : ℕ) : ℕ → List ℕ → ℕ
  | _, [] => 0
  | r, c :: cs =>
    if u32 (c + r) ≤ n then c + if n ≤ u32 (r + c) then 0 else paidOut n (u32 (r + c)) cs else n - r

def BelowWord (n : ℕ) : ℕ → List ℕ → Prop
  | _, [] => True
  | r, c :: cs => r + c < 2 ^ 32 ∧ (r + c < n → BelowWord n (r + c) cs)

theorem paidOut_eq_iff {n : ℕ} (hn : n < 2 ^ 32) {cs : List ℕ} (hcs : ∀ c ∈ cs, 1 ≤ c ∧ c < 2 ^ 31) {r : ℕ}
    (hr : r < n) (hsum : n ≤ r + cs.sum) : r + paidOut n r cs = n ↔ BelowWord n r cs := by
  induction cs generalizing r with
  | nil =>
    rw [List.sum_nil] at hsum
    omega
  | cons c cs ih =>
    obtain ⟨hpos, hmax⟩ := hcs c (List.mem_cons_self ..)
    rw [List.sum_cons] at hsum
    unfold paidOut BelowWord
    rw [Nat.add_comm c r]
    by_cases hfit : r + c < 2 ^ 32
    · rw [u32_of_lt hfit]
      by_cases hless : r + c < n
      · have hrest := ih (fun d hd => hcs d (List.mem_cons_of_mem c hd)) hless (by omega)
        rw [if_pos hless.le, if_neg (Nat.not_le.mpr hless), ← Nat.add_assoc, hrest]
        exact ⟨fun h => ⟨hfit, fun _ => h⟩, fun h => h.2 hless⟩
      · have hreached : r + (if r + c ≤ n then c + if n ≤ r + c then 0 else paidOut n (r + c) cs else n - r) = n := by
          rw [if_pos (Nat.le_of_not_lt hless)]
          split <;> omega
        exact ⟨fun _ => ⟨hfit, fun h => absurd h hless⟩, fun _ => hreached⟩
    · -- the word wraps below the price, so the stack goes whole and is already too much
      have hwrap : u32 (r + c) ≤ n := by
        unfold u32
        omega
      rw [if_pos hwrap]
      constructor
      · intro h
        omega
      · intro h
        exact absurd h.1 hfit

namespace Player
variable {t : Templates} {inTrade : Guid → Bool} {p q r : Player} {e n : ℕ} {g : Guid}

/-! ### One stack -/

variable {pos : ℕ × ℕ}

theorem counted_some (h : p.counted t inTrade e pos = some g) :
    ∃ place, p.resolve t pos.1 pos.2 = some place ∧ p.at? place = some g ∧ (p.items g).entry = e ∧
      inTrade g = false := by
  obtain ⟨hget, hcond⟩ := Option.filter_eq_some_iff.mp h
  obtain ⟨place, hresolve, hat⟩ := GetItemByPos_some hget
  simp only [Bool.and_eq_true, decide_eq_true_eq, Bool.not_eq_true'] at hcond
  exact ⟨place, hresolve, hat, hcond⟩

theorem removeDestroyed_eq {bag slot : ℕ} (hget : p.GetItemByPos t bag slot = some g) :
    p.removeDestroyed t bag slot g = (p.RemoveItem t bag slot).discard g := by
  unfold removeDestroyed RemoveItem
  rw [hget]
  cases p.GetBagByPos t bag <;> rfl

theorem DestroyItem_eq {bag slot : ℕ} (hget : p.GetItemByPos t bag slot = some g) (hbag : p.IsBag t g = false)
    (depth : ℕ) : p.DestroyItem t (depth + 1) bag slot = (p.RemoveItem t bag slot).discard g := by
  have hempty : p.IsNotEmptyBag t g = false := by
    unfold IsNotEmptyBag
    rw [hbag, Bool.false_and]
  rw [← removeDestroyed_eq hget]
  unfold DestroyItem
  rw [hget]
  simp only [hempty, Bool.false_eq_true, if_false]

theorem payable_congr (h : q.items g = p.items g) : q.payable inTrade e g = p.payable inTrade e g := by
  unfold payable
  rw [h]

theorem Sound.outside_erase (h : p.Sound t) (inTrade : Guid → Bool) (e : ℕ) {place : Place} (hat : p.at? place = some g)
    (hothers : ∀ g', g' ≠ g → q.items g' = p.items g') :
    (((p.slots.erase place).rows).map fun s => q.payable inTrade e s.item).sum + p.payable inTrade e g =
      p.outside inTrade e := by
  have hrest : ((p.slots.erase place).rows).map (fun s => q.payable inTrade e s.item) =
      ((p.slots.erase place).rows).map fun s => p.payable inTrade e s.item := by
    apply List.map_congr_left
    intro s hs
    obtain ⟨hmem, hne⟩ := (p.slots.mem_erase place s).mp hs
    exact payable_congr (hothers _ fun heq => hne (h.unique (mem_slots_iff.mp hmem) (heq ▸ hat)))
  rw [hrest]
  exact p.slots.sum_erase (fun s => p.payable inTrade e s.item) (mem_slots_iff.mpr hat)

structure Kept (t : Templates) (inTrade : Guid → Bool) (e : ℕ) (p q : Player) : Prop where
  sound : q.Sound t
  entry : ∀ g, (q.items g).entry = (p.items g).entry
  bags : ∀ bag, q.GetBagByPos t bag = p.GetBagByPos t bag
  untouched : ∀ g, (p.items g).entry ≠ e ∨ inTrade g = true → Untouched p q g

theorem Kept.refl (h : p.Sound t) : Kept t inTrade e p p :=
  ⟨h, fun _ => rfl, fun _ => rfl, fun _ _ => ⟨rfl, fun _ => Iff.rfl⟩⟩

theorem Kept.trans (hpq : Kept t inTrade e p q) (hqr : Kept t inTrade e q r) : Kept t inTrade e p r := by
  constructor
  · exact hqr.sound
  · exact fun g => (hqr.entry g).trans (hpq.entry g)
  · exact fun bag => (hqr.bags bag).trans (hpq.bags bag)
  · intro g hg
    have hp := hpq.untouched g hg
    rw [← hpq.entry g] at hg
    have hq := hqr.untouched g hg
    exact ⟨hq.1.trans hp.1, fun place => (hq.2 place).trans (hp.2 place)⟩

theorem Kept.template (h : Kept t inTrade e p q) (g : Guid) : q.template t g = p.template t g :=
  template_congr (h.entry g)

theorem Kept.GetBagSize (h : Kept t inTrade e p q) (b : Guid) : q.GetBagSize t b = p.GetBagSize t b := by
  unfold Player.GetBagSize
  rw [h.template]

theorem Kept.resolve (h : Kept t inTrade e p q) (bag slot : ℕ) : q.resolve t bag slot = p.resolve t bag slot := by
  unfold Player.resolve
  simp only [h.bags, h.GetBagSize]

theorem Kept.bagPositions (h : Kept t inTrade e p q) (bag : ℕ) : q.bagPositions t bag = p.bagPositions t bag := by
  unfold Player.bagPositions
  simp only [h.bags, h.GetBagSize]

structure Spent (t : Templates) (inTrade : Guid → Bool) (e k : ℕ) (pos : ℕ × ℕ) (p q : Player) : Prop where
  kept : Kept t inTrade e p q
  others : ∀ pos', pos' ≠ pos → q.stackAt t inTrade e pos' = p.stackAt t inTrade e pos'
  lowered : q.outside inTrade e + k = p.outside inTrade e

theorem Sound.spent (h : p.Sound t) {k : ℕ} {place : Place}
    (hresolve : p.resolve t pos.1 pos.2 = some place) (hat : p.at? place = some g)
    (hpaid : (p.items g).entry = e ∧ inTrade g = false) (hbag : p.IsBag t g = false) (hsound : q.Sound t)
    (hothers : ∀ g', g' ≠ g → q.items g' = p.items g') (hentry : ∀ g', (q.items g').entry = (p.items g').entry)
    (hat_eq : ∀ pl, pl ≠ place → q.at? pl = p.at? pl) (hplace : q.at? place = none ∨ q.at? place = some g)
    (hlowered : q.outside inTrade e + k = p.outside inTrade e) : Spent t inTrade e k pos p q := by
  have hIsBag : ∀ g', q.IsBag t g' = p.IsBag t g' := by
    intro g'
    unfold IsBag
    rw [template_congr (hentry g')]
  have hkept : Kept t inTrade e p q := by
    constructor
    · exact hsound
    · exact hentry
    · intro bag
      unfold GetBagByPos
      rw [funext hIsBag]
      by_cases hown : Place.own bag = place
      · -- the item itself is no bag
        rw [hown, hat]
        obtain hnone | hsome := hplace
        · rw [hnone, Option.filter_some, hbag]
          rfl
        · rw [hsome]
      · rw [hat_eq _ hown]
    · intro g' hg'
      have hne : g' ≠ g := by
        rintro rfl
        simp [hpaid] at hg'
      constructor
      · exact hothers g' hne
      · intro pl
        by_cases hpl : pl = place
        · rw [hpl, hat]
          obtain hnone | hsome := hplace
          · simp [hnone, Ne.symm hne]
          · rw [hsome]
        · rw [hat_eq pl hpl]
  constructor
  · exact hkept
  · intro pos' hpos'
    unfold stackAt counted GetItemByPos
    rw [hkept.resolve]
    cases hres : p.resolve t pos'.1 pos'.2 with
    | none => rfl
    | some pl =>
      have hpl : pl ≠ place := by
        rintro rfl
        exact hpos' (h.resolve_inj hres hresolve)
      rw [Option.bind_some, Option.bind_some, hat_eq pl hpl]
      cases hget : p.at? pl with
      | none => rfl
      | some g' =>
        have hne : g' ≠ g := by
          rintro rfl
          exact hpl (h.unique hget hat)
        simp only [Option.filter_some, hothers g' hne]
        split
        · simp [hothers g' hne]
        · rfl
  · exact hlowered

theorem Sound.spent_destroyed (h : p.Sound t) (hcounted : p.counted t inTrade e pos = some g)
    (hbag : p.IsBag t g = false) :
    Spent t inTrade e (p.items g).count pos p ((p.RemoveItem t pos.1 pos.2).discard g) := by
  obtain ⟨place, hresolve, hat, hpaid⟩ := counted_some hcounted
  have htaken := h.taken hresolve hat
  have hslots : (p.RemoveItem t pos.1 pos.2).slots = p.slots.erase place := by
    rw [h.RemoveItem_eq hresolve hat]
    rfl
  generalize p.RemoveItem t pos.1 pos.2 = q at htaken hslots ⊢
  have hempty : ∀ s, q.at? (.bag g s) = none := by
    intro s
    rw [htaken.at_eq]
    split
    · rfl
    · cases hin : p.at? (.bag g s) with
      | none => rfl
      | some g' =>
        have hisBag := (h.inBags hin).1
        rw [hbag] at hisBag
        exact absurd hisBag (by decide)
  have hworth : p.payable inTrade e g = (p.items g).count := if_pos hpaid
  apply h.spent hresolve hat hpaid hbag
  · exact htaken.sound.discard htaken.loose hempty
  · exact htaken.others
  · exact htaken.entry
  · intro pl hpl
    rw [at?_discard, htaken.at_eq, if_neg hpl]
  · left
    rw [at?_discard, htaken.at_eq, if_pos rfl]
  · have hsum := h.outside_erase inTrade e hat htaken.others
    rw [hworth, ← hslots] at hsum
    exact hsum

theorem Sound.spent_part (h : p.Sound t) (hcounted : p.counted t inTrade e pos = some g)
    (hbag : p.IsBag t g = false) {k : ℕ} (hk : k < (p.items g).count) :
    Spent t inTrade e k pos p (p.SetCount g ((p.items g).count - k)) := by
  obtain ⟨place, hresolve, hat, hpaid⟩ := counted_some hcounted
  have hmax := (h.counts hat).2
  have hothers : ∀ g', g' ≠ g → (p.SetCount g ((p.items g).count - k)).items g' = p.items g' :=
    fun g' hne => items_modifyItem_of_ne _ hne
  have hentry := entry_SetCount (p := p) g ((p.items g).count - k)
  apply h.spent hresolve hat hpaid hbag
  · exact h.SetCount hat (by omega) (by omega)
  · exact hothers
  · exact hentry
  · exact fun _ _ => rfl
  · exact .inr hat
  · have hsum := h.outside_erase inTrade e hat hothers
    have hnew := p.slots.sum_erase (fun s => (p.SetCount g ((p.items g).count - k)).payable inTrade e s.item)
      (mem_slots_iff.mpr hat)
    simp only at hnew
    have hold : p.payable inTrade e g = (p.items g).count := if_pos hpaid
    have hleft : (p.SetCount g ((p.items g).count - k)).payable inTrade e g = (p.items g).count - k := by
      unfold payable
      rw [if_pos ⟨(hentry g).trans hpaid.1, hpaid.2⟩]
      unfold Player.SetCount
      rw [items_modifyItem_self]
    rw [hold] at hsum
    rw [hleft] at hnew
    have hgoal : (p.SetCount g ((p.items g).count - k)).outside inTrade e =
      (p.slots.rows.map fun s => (p.SetCount g ((p.items g).count - k)).payable inTrade e s.item).sum := rfl
    omega

/-! ### A walk -/

structure Paying.Open (t : Templates) (n : ℕ) (s : Paying) : Prop where
  sound : s.player.Sound t
  below : s.done = false → s.remcount < n

variable {s : Paying}

theorem payAt_done (h : s.done = true) (pos : ℕ × ℕ) : payAt t inTrade e n s pos = s := if_pos h

theorem payAt_none (h : s.player.stackAt t inTrade e pos = none) : payAt t inTrade e n s pos = s := by
  unfold payAt
  rw [Option.map_eq_none_iff.mp h]
  exact ite_self s

theorem payAt_some (hopen : s.Open t n) (hbag : (t e).inventoryType ≠ 18) (hn : n < 2 ^ 32) (hdone : s.done = false)
    {c : ℕ} (hstack : s.player.stackAt t inTrade e pos = some c) :
    u32 (c + s.remcount) ≤ n ∧
        (∃ q, payAt t inTrade e n s pos = ⟨q, u32 (s.remcount + c), decide (n ≤ u32 (s.remcount + c))⟩ ∧
          Spent t inTrade e c pos s.player q) ∨
      n < u32 (c + s.remcount) ∧
        ∃ q, payAt t inTrade e n s pos = ⟨q, s.remcount, true⟩ ∧
          Spent t inTrade e (n - s.remcount) pos s.player q := by
  obtain ⟨hsound, hbelow⟩ := hopen
  have hr := hbelow hdone
  obtain ⟨g, hcounted, rfl⟩ := Option.map_eq_some_iff.mp hstack
  obtain ⟨place, hresolve, hat, hentry, htrade⟩ := counted_some hcounted
  have hisBag : s.player.IsBag t g = false := by
    unfold IsBag template
    rw [hentry]
    exact decide_eq_false hbag
  have hmax := (hsound.counts hat).2
  have hword := (s.player.template t g).GetMaxStackSize_lt
  unfold payAt
  rw [hdone, hcounted]
  simp only [Bool.false_eq_true, if_false]
  by_cases hfit : u32 ((s.player.items g).count + s.remcount) ≤ n
  · left
    rw [if_pos hfit, DestroyItem_eq (Option.filter_eq_some_iff.mp hcounted).1 hisBag]
    exact ⟨hfit, _, rfl, hsound.spent_destroyed hcounted hisBag⟩
  · right
    rw [if_neg hfit]
    -- no wrap here: the sum would have come out below the price
    have hsum : n < (s.player.items g).count + s.remcount ∧ (s.player.items g).count + s.remcount < 2 ^ 32 := by
      unfold u32 at hfit
      omega
    have hleft : u32 ((s.player.items g).count + 2 ^ 32 - n + s.remcount) =
        (s.player.items g).count - (n - s.remcount) := by
      unfold u32
      omega
    rw [hleft]
    exact ⟨Nat.lt_of_not_le hfit, _, rfl, hsound.spent_part hcounted hisBag (by omega)⟩

variable (inTrade) in
theorem payAt_kept (hopen : s.Open t n) (hbag : (t e).inventoryType ≠ 18) (hn : n < 2 ^ 32) (pos : ℕ × ℕ) :
    Kept t inTrade e s.player (payAt t inTrade e n s pos).player ∧ (payAt t inTrade e n s pos).Open t n := by
  cases hdone : s.done with
  | true =>
    rw [payAt_done hdone]
    exact ⟨.refl hopen.sound, hopen⟩
  | false =>
    cases hstack : s.player.stackAt t inTrade e pos with
    | none =>
      rw [payAt_none hstack]
      exact ⟨.refl hopen.sound, hopen⟩
    | some c =>
      obtain ⟨-, q, hq, hspent⟩ | ⟨-, q, hq, hspent⟩ := payAt_some hopen hbag hn hdone hstack
      · rw [hq]
        exact ⟨hspent.kept, hspent.kept.sound, fun h => Nat.lt_of_not_le (of_decide_eq_false h)⟩
      · rw [hq]
        exact ⟨hspent.kept, hspent.kept.sound, fun h => nomatch h⟩

variable (inTrade) in
theorem foldl_payAt_kept (hopen : s.Open t n) (hbag : (t e).inventoryType ≠ 18) (hn : n < 2 ^ 32)
    (ps : List (ℕ × ℕ)) :
    Kept t inTrade e s.player (ps.foldl (payAt t inTrade e n) s).player ∧
      (ps.foldl (payAt t inTrade e n) s).Open t n := by
  induction ps generalizing s with
  | nil => exact ⟨.refl hopen.sound, hopen⟩
  | cons pos ps ih =>
    have hstep := payAt_kept inTrade hopen hbag hn pos
    have hrest := ih hstep.2
    exact ⟨hstep.1.trans hrest.1, hrest.2⟩

theorem foldl_payAt_done (h : s.done = true) (ps : List (ℕ × ℕ)) : ps.foldl (payAt t inTrade e n) s = s := by
  induction ps with
  | nil => rfl
  | cons pos ps ih => rw [List.foldl_cons, payAt_done h, ih]

theorem foldl_payAt_lowered (hbag : (t e).inventoryType ≠ 18) (hn : n < 2 ^ 32) {ps : List (ℕ × ℕ)} (hps : ps.Nodup)
    (hopen : s.Open t n) (hdone : s.done = false) :
    (ps.foldl (payAt t inTrade e n) s).player.outside inTrade e +
        paidOut n s.remcount (ps.filterMap (s.player.stackAt t inTrade e)) = s.player.outside inTrade e := by
  induction ps generalizing s with
  | nil => rfl
  | cons pos ps ih =>
    obtain ⟨hnew, hps⟩ := List.nodup_cons.mp hps
    rw [List.foldl_cons]
    cases hstack : s.player.stackAt t inTrade e pos with
    | none =>
      rw [payAt_none hstack, List.filterMap_cons_none hstack]
      exact ih hps hopen hdone
    | some c =>
      have hopen' := (payAt_kept inTrade hopen hbag hn pos).2
      rw [List.filterMap_cons_some hstack]
      unfold paidOut
      obtain ⟨hfit, q, hq, hspent⟩ | ⟨hfit, q, hq, hspent⟩ := payAt_some hopen hbag hn hdone hstack
      · rw [hq] at hopen' ⊢
        have hlowered := hspent.lowered
        rw [if_pos hfit]
        by_cases hover : n ≤ u32 (s.remcount + c)
        · rw [foldl_payAt_done (decide_eq_true hover), if_pos hover]
          omega
        · -- the other positions show what they did
          have hsame : ps.filterMap (q.stackAt t inTrade e) = ps.filterMap (s.player.stackAt t inTrade e) := by
            apply List.filterMap_congr
            intro pos' hpos'
            exact hspent.others pos' fun heq => hnew (heq ▸ hpos')
          have hrest := ih hps hopen' (decide_eq_false hover)
          simp only [hsame] at hrest
          rw [if_neg hover]
          omega
      · rw [hq, if_neg (Nat.not_le.mpr hfit), foldl_payAt_done rfl]
        exact hspent.lowered

/-! ### The two walks -/

theorem payBags_eq (hopen : s.Open t n) (hbag : (t e).inventoryType ≠ 18) (hn : n < 2 ^ 32) (bags : List ℕ) :
    payBags t inTrade e n bags s = (bags.flatMap (s.player.bagPositions t)).foldl (payAt t inTrade e n) s := by
  unfold payBags
  induction bags generalizing s with
  | nil => rfl
  | cons bag bags ih =>
    have hstep := foldl_payAt_kept inTrade hopen hbag hn (s.player.bagPositions t bag)
    rw [List.foldl_cons, ih hstep.2, List.flatMap_cons, List.foldl_append, funext hstep.1.bagPositions]

theorem DestroyItemCount_eq (h : p.Sound t) (hbag : (t e).inventoryType ≠ 18) (hpos : 1 ≤ n) (hn : n < 2 ^ 32) :
    p.DestroyItemCount t inTrade e n =
      ((p.destroyPositions t).foldl (payAt t inTrade e n) ⟨p, 0, false⟩).player := by
  have hopen : Paying.Open t n ⟨p, 0, false⟩ := ⟨h, fun _ => hpos⟩
  unfold DestroyItemCount destroyPositions paySlots
  rw [List.foldl_append, List.foldl_append]
  have hown := foldl_payAt_kept inTrade hopen hbag hn
    (ownPositions INVENTORY_SLOT_ITEM_START INVENTORY_SLOT_ITEM_END)
  have hkeys := foldl_payAt_kept inTrade hown.2 hbag hn
    (ownPositions KEYRING_SLOT_START CURRENCYTOKEN_SLOT_END)
  have hbags := foldl_payAt_kept inTrade hkeys.2 hbag hn (inventoryBags.flatMap (p.bagPositions t))
  have hworn := foldl_payAt_kept inTrade hbags.2 hbag hn (ownPositions 0 INVENTORY_SLOT_BAG_END)
  have hbank := foldl_payAt_kept inTrade hworn.2 hbag hn
    (ownPositions BANK_SLOT_ITEM_START BANK_SLOT_ITEM_END)
  have hkept := hown.1.trans hkeys.1
  have hkept' := ((hkept.trans hbags.1).trans hworn.1).trans hbank.1
  simp only [payBags_eq hkeys.2 hbag hn, funext hkept.bagPositions, payBags_eq hbank.2 hbag hn,
    funext hkept'.bagPositions, List.foldl_append]

theorem mem_ownPositions {slot_begin slot_end : ℕ} (h : pos ∈ ownPositions slot_begin slot_end) :
    pos.1 = INVENTORY_SLOT_BAG_0 ∧ slot_begin ≤ pos.2 ∧ pos.2 < slot_end := by
  obtain ⟨slot, hslot, rfl⟩ := List.mem_map.mp h
  rw [List.mem_range'_1] at hslot
  exact ⟨rfl, hslot.1, by omega⟩

theorem nodup_ownPositions (slot_begin slot_end : ℕ) : (ownPositions slot_begin slot_end).Nodup :=
  List.Nodup.map (fun _ _ heq => (Prod.mk.inj heq).2) List.nodup_range'

theorem mem_bagPositions {bag : ℕ} (h : pos ∈ p.bagPositions t bag) : pos.1 = bag := by
  unfold bagPositions at h
  split at h
  · exact absurd h (List.not_mem_nil)
  · obtain ⟨slot, -, rfl⟩ := List.mem_map.mp h
    rfl

theorem nodup_bagPositions (bag : ℕ) : (p.bagPositions t bag).Nodup := by
  unfold bagPositions
  split
  · exact List.nodup_nil
  · exact List.nodup_range.map fun _ _ heq => (Prod.mk.inj heq).2

theorem nodup_flatMap_bagPositions {bags : List ℕ} (h : bags.Nodup) :
    (bags.flatMap (p.bagPositions t)).Nodup := by
  rw [List.nodup_flatMap]
  constructor
  · exact fun bag _ => nodup_bagPositions bag
  · apply h.imp
    intro a b hne pos ha hb
    exact hne ((mem_bagPositions ha).symm.trans (mem_bagPositions hb))

theorem mem_flatMap_bagPositions {bags : List ℕ} (h : pos ∈ bags.flatMap (p.bagPositions t)) : pos.1 ∈ bags := by
  obtain ⟨bag, hbag, hpos⟩ := List.mem_flatMap.mp h
  rw [mem_bagPositions hpos]
  exact hbag

theorem nodup_destroyPositions : (p.destroyPositions t).Nodup := by
  have hnotBag : INVENTORY_SLOT_BAG_0 ∉ inventoryBags ∧ INVENTORY_SLOT_BAG_0 ∉ bankBags := by decide
  have hbags : ∀ bag ∈ inventoryBags, bag ∉ bankBags := by decide
  have hnodup : inventoryBags.Nodup ∧ bankBags.Nodup := by decide
  have hslots : INVENTORY_SLOT_BAG_END ≤ INVENTORY_SLOT_ITEM_START ∧ INVENTORY_SLOT_ITEM_END ≤ BANK_SLOT_ITEM_START ∧
      BANK_SLOT_ITEM_END ≤ KEYRING_SLOT_START ∧ INVENTORY_SLOT_ITEM_START ≤ INVENTORY_SLOT_ITEM_END ∧
      BANK_SLOT_ITEM_START ≤ BANK_SLOT_ITEM_END := by decide
  have hown : ∀ {pos : ℕ × ℕ} {a b c d : ℕ}, pos ∈ ownPositions a b → b ≤ c ∨ d ≤ a → pos ∉ ownPositions c d := by
    intro pos a b c d hpos hrange hpos'
    have h := mem_ownPositions hpos
    have h' := mem_ownPositions hpos'
    omega
  have hbag : ∀ {pos : ℕ × ℕ} {a b : ℕ}, pos ∈ ownPositions a b →
      pos ∉ inventoryBags.flatMap (p.bagPositions t) ∧ pos ∉ bankBags.flatMap (p.bagPositions t) := by
    intro pos a b hpos
    constructor <;> intro hmem <;> have hfirst := mem_flatMap_bagPositions hmem <;>
      rw [(mem_ownPositions hpos).1] at hfirst
    · exact hnotBag.1 hfirst
    · exact hnotBag.2 hfirst
  unfold destroyPositions
  apply (nodup_ownPositions ..).append
  · apply (nodup_ownPositions ..).append
    · apply (nodup_flatMap_bagPositions hnodup.1).append
      · apply (nodup_ownPositions ..).append
        · apply (nodup_ownPositions ..).append (nodup_flatMap_bagPositions hnodup.2)
          exact fun pos hpos => (hbag hpos).2
        · intro pos hpos hmem
          obtain hbank | hbags := List.mem_append.mp hmem
          · exact hown hpos (by omega) hbank
          · exact (hbag hpos).2 hbags
      · intro pos hpos hmem
        simp only [List.mem_append] at hmem
        obtain hworn | hbank | hbanks := hmem
        · exact (hbag hworn).1 hpos
        · exact (hbag hbank).1 hpos
        · exact hbags _ (mem_flatMap_bagPositions hpos) (mem_flatMap_bagPositions hbanks)
    · intro pos hpos hmem
      simp only [List.mem_append] at hmem
      obtain hbags | hworn | hbank | hbanks := hmem
      · exact (hbag hpos).1 hbags
      · exact hown hpos (by omega) hworn
      · exact hown hpos (by omega) hbank
      · exact (hbag hpos).2 hbanks
  · intro pos hpos hmem
    simp only [List.mem_append] at hmem
    obtain hkeys | hbags | hworn | hbank | hbanks := hmem
    · exact hown hpos (by omega) hkeys
    · exact (hbag hpos).1 hbags
    · exact hown hpos (by omega) hworn
    · exact hown hpos (by omega) hbank
    · exact (hbag hpos).2 hbanks

theorem foldl_countSlot_le {ps : List (ℕ × ℕ)} {k : ℕ} (hless : k < n)
    (h : (ps.foldl (p.countSlot t inTrade e n) (k, false)).2 = true) :
    n ≤ k + (ps.filterMap (p.stackAt t inTrade e)).sum := by
  induction ps generalizing k with
  | nil => exact absurd h (by simp)
  | cons pos ps ih =>
    rw [List.foldl_cons] at h
    cases hcounted : p.counted t inTrade e pos with
    | none =>
      have hstack : p.stackAt t inTrade e pos = none := Option.map_eq_none_iff.mpr hcounted
      have hsame : p.countSlot t inTrade e n (k, false) pos = (k, false) := by
        unfold countSlot
        rw [hcounted]
        rfl
      rw [hsame] at h
      rw [List.filterMap_cons_none hstack]
      exact ih hless h
    | some g =>
      have hstack : p.stackAt t inTrade e pos = some (p.items g).count := by
        unfold stackAt
        rw [hcounted]
        rfl
      have hword : u32 (k + (p.items g).count) ≤ k + (p.items g).count := Nat.mod_le ..
      have hnext : p.countSlot t inTrade e n (k, false) pos =
          (u32 (k + (p.items g).count), decide (n ≤ u32 (k + (p.items g).count))) := by
        unfold countSlot
        rw [hcounted]
        rfl
      rw [hnext] at h
      rw [List.filterMap_cons_some hstack, List.sum_cons]
      by_cases henough : n ≤ u32 (k + (p.items g).count)
      · omega
      · rw [decide_eq_false henough] at h
        have hrest := ih (Nat.lt_of_not_le henough) h
        omega

theorem ownPositions_append {a b c : ℕ} (hab : a ≤ b) (hbc : b ≤ c) :
    ownPositions a c = ownPositions a b ++ ownPositions b c := by
  unfold ownPositions
  rw [← List.map_append, show c - a = (b - a) + (c - b) by omega, ← List.range'_append_1,
    show a + (b - a) = b by omega]

theorem HasItemCount_le (hpos : 1 ≤ n) (h : p.HasItemCount t inTrade e n true = true) :
    n ≤ (p.stackCounts t inTrade e).sum := by
  have hsum := foldl_countSlot_le hpos h
  have hown := ownPositions_append (a := 0) (b := INVENTORY_SLOT_BAG_END) (c := INVENTORY_SLOT_ITEM_END)
    (by decide) (by decide)
  unfold hasItemPositions at hsum
  unfold stackCounts destroyPositions
  rw [hown] at hsum
  simp only [if_true, List.filterMap_append, List.sum_append] at hsum ⊢
  have hsame : INVENTORY_SLOT_BAG_END = INVENTORY_SLOT_ITEM_START := rfl
  rw [hsame] at hsum ⊢
  omega

theorem Sound.stackCounts_bound (h : p.Sound t) : ∀ c ∈ p.stackCounts t inTrade e, 1 ≤ c ∧ c < 2 ^ 31 := by
  intro c hc
  obtain ⟨pos, -, hstack⟩ := List.mem_filterMap.mp hc
  obtain ⟨g, hcounted, rfl⟩ := Option.map_eq_some_iff.mp hstack
  obtain ⟨place, -, hat, -⟩ := counted_some hcounted
  exact ⟨(h.counts hat).1, (h.counts hat).2.trans_lt (p.template t g).GetMaxStackSize_lt⟩

variable (inTrade) in
theorem DestroyItemCount_lowered (h : p.Sound t) (hbag : (t e).inventoryType ≠ 18) (hpos : 1 ≤ n)
    (hn : n < 2 ^ 32) :
    (p.DestroyItemCount t inTrade e n).outside inTrade e + paidOut n 0 (p.stackCounts t inTrade e) =
      p.outside inTrade e := by
  rw [DestroyItemCount_eq h hbag hpos hn]
  exact foldl_payAt_lowered hbag hn nodup_destroyPositions ⟨h, fun _ => hpos⟩ rfl

/-- A payment is exact where the running count does not wrap on the way to the price. -/
theorem paysExactly_iff (h : p.Sound t) (hbag : (t e).inventoryType ≠ 18) (hpos : 1 ≤ n) (hn : n < 2 ^ 32)
    (hhas : p.HasItemCount t inTrade e n true = true) :
    p.PaysExactly t inTrade e n ↔ BelowWord n 0 (p.stackCounts t inTrade e) := by
  have hlowered := DestroyItemCount_lowered inTrade h hbag hpos hn
  have hkept := (foldl_payAt_kept inTrade (s := ⟨p, 0, false⟩) ⟨h, fun _ => hpos⟩ hbag hn
    (p.destroyPositions t)).1
  rw [← DestroyItemCount_eq h hbag hpos hn] at hkept
  have hsum := HasItemCount_le hpos hhas
  rw [← paidOut_eq_iff hn h.stackCounts_bound hpos (by omega)]
  constructor
  · intro hpays
    have hexact := hpays.lowered
    omega
  · intro hexact
    constructor
    · omega
    · exact hkept.untouched
    · exact fun _ _ hat => (hkept.sound.counts hat).1

/-! ### Stacks without a limit -/

def coinTemplates : Templates := fun _ =>
  { itemClass := 10, subClass := 0, inventoryType := 0, bagFamily := 0, stackable := 2147483647, containerSlots := 0 }

/-- Twelve of a thousand coins in the backpack, with five hundred more in trade. -/
theorem paysExactly_iff_coins :
    (samplePlayer [(23, 1, 500), (24, 1, 1000)]).PaysExactly coinTemplates (fun g => decide (g = 1)) 1 12 :=
  (paysExactly_iff (t := coinTemplates) (p := samplePlayer [(23, 1, 500), (24, 1, 1000)])
    (sound_of_rows (by decide) (fun _ => rfl) rfl rfl) (by decide) (by decide) (by decide) (by decide +kernel)).mpr (by
      have hstacks : (samplePlayer [(23, 1, 500), (24, 1, 1000)]).stackCounts coinTemplates (fun g => decide (g = 1))
          1 = [1000] := by decide +kernel
      rw [hstacks]
      exact ⟨by decide, fun h => absurd h (by decide)⟩)

def coins : Player :=
  samplePlayer [(23, 1, 2147483646), (24, 1, 2147483646), (25, 1, 2147483646), (26, 1, 2147483646), (27, 1, 5)]

theorem payment_wraps : ¬ ∀ (t : Templates) (inTrade : Guid → Bool) (p : Player) (e n : ℕ), p.Sound t →
    (t e).inventoryType ≠ 18 → 1 ≤ n → n < 2 ^ 32 → p.HasItemCount t inTrade e n true = true →
    p.PaysExactly t inTrade e n := by
  intro hall
  have hsound : coins.Sound coinTemplates := sound_of_rows (by decide) (fun _ => rfl) rfl rfl
  have hpays := hall coinTemplates (fun _ => false) coins 1 4294967293 hsound (by decide) (by decide) (by decide)
    (by decide +kernel)
  have hlowered := DestroyItemCount_lowered (fun _ => false) (t := coinTemplates) (e := 1) (n := 4294967293)
    hsound (by decide) (by decide) (by decide)
  have hpaid : paidOut 4294967293 0 (coins.stackCounts coinTemplates (fun _ => false) 1) = 8589934589 := by
    decide +kernel
  have hexact := hpays.lowered
  omega

end Player

end HysteriaCore.Inventory

import HysteriaCore.Inventory.Sound

/-!
# What a plan says

A plan that is complete takes the whole stack, visits no position twice, and each of its positions has
room for what it takes. The blocks of the two searches keep this one by one.
-/

namespace HysteriaCore.Inventory
open Lib

variable {t : Templates} {p : Player} {g : Guid} {n : ℕ} {F : ItemPosCount → Prop}

/-- A position that has room: free, or with a stack of the same entry that stays in its bounds. -/
structure Fits (t : Templates) (p : Player) (g : Guid) (d : ItemPosCount) : Prop where
  pos : 1 ≤ d.count
  le_max : d.count ≤ (p.template t g).GetMaxStackSize
  room : ∃ place, p.resolve t d.bag d.slot = some place ∧
    ∀ g2, p.at? place = some g2 → g2 ≠ g →
      (p.items g2).entry = (p.items g).entry ∧
        (p.items g2).count + d.count ≤ (p.template t g).GetMaxStackSize

structure Plan.Good (F : ItemPosCount → Prop) (n : ℕ) (plan : Plan) : Prop where
  sum : (plan.dest.map ItemPosCount.count).sum + plan.count = n
  nodup : (plan.dest.map ItemPosCount.pos).Nodup
  fits : ∀ d ∈ plan.dest, F d

def HasSpace (F : ItemPosCount → Prop) (bag slot space : ℕ) : Prop :=
  1 ≤ space ∧ ∀ k, 1 ≤ k → k ≤ space → F ⟨bag, slot, k⟩

theorem HasSpace.mono {G : ItemPosCount → Prop} {bag slot space : ℕ} (h : HasSpace F bag slot space)
    (hFG : ∀ d, F d → G d) : HasSpace G bag slot space :=
  ⟨h.1, fun k hpos hle => hFG _ (h.2 k hpos hle)⟩

variable {plan : Plan}

theorem Plan.Good.push (h : plan.Good F n) (hcount : 0 < plan.count) {bag slot space : ℕ}
    (hspace : HasSpace F bag slot space) : (plan.push bag slot space).Good F n := by
  unfold Plan.push
  split
  · exact h
  rename_i hnew
  have hsum := h.sum
  refine ⟨?_, ?_, ?_⟩
  · simp only [List.map_append, List.map_cons, List.map_nil, List.sum_append, List.sum_cons, List.sum_nil]
    omega
  · rw [List.map_append, List.nodup_append]
    refine ⟨h.nodup, by simp, ?_⟩
    intro a ha b hb
    simp only [List.map_cons, List.map_nil, List.mem_singleton] at hb
    rw [hb]
    intro heq
    rw [heq] at ha
    exact hnew ha
  · intro d hd
    rcases List.mem_append.mp hd with hd | hd
    · exact h.fits d hd
    · rw [List.mem_singleton.mp hd]
      refine hspace.2 _ ?_ (Nat.min_le_left ..)
      exact Nat.le_min.mpr ⟨hspace.1, hcount⟩

structure Complete (t : Templates) (p : Player) (g : Guid) (n : ℕ) (dest : List ItemPosCount) : Prop where
  sum : (dest.map ItemPosCount.count).sum = n
  nodup : (dest.map ItemPosCount.pos).Nodup
  fits : ∀ d ∈ dest, Fits t p g d

theorem Complete.ne_nil {n : ℕ} {dest : List ItemPosCount} (h : Complete t p g n dest) (hn : 1 ≤ n) : dest ≠ [] := by
  rintro rfl
  have hsum := h.sum
  simp only [List.map_nil, List.sum_nil] at hsum
  omega

theorem Plan.Good.complete (h : plan.Good (Fits t p g) n) (hzero : plan.count = 0) : Complete t p g n plan.dest := by
  have hsum := h.sum
  rw [hzero, Nat.add_zero] at hsum
  exact ⟨hsum, h.nodup, h.fits⟩

theorem good_nil (F : ItemPosCount → Prop) (n : ℕ) : (⟨[], n⟩ : Plan).Good F n :=
  ⟨by simp, List.nodup_nil, by simp⟩

namespace Player

/-! ### What the slots offer -/

variable {bag slot : ℕ}

theorem hasSpace_empty {place : Place} (hresolve : p.resolve t bag slot = some place)
    (hempty : p.otherItem (t := t) g bag slot = none) :
    HasSpace (Fits t p g) bag slot (t (p.items g).entry).GetMaxStackSize := by
  refine ⟨(t (p.items g).entry).GetMaxStackSize_pos, fun k hpos hle => ⟨hpos, hle, place, hresolve, ?_⟩⟩
  intro g2 hat hne
  unfold otherItem GetItemByPos at hempty
  rw [hresolve, Option.bind_some, hat, Option.filter_eq_none_iff] at hempty
  exact absurd (decide_eq_true hne) (hempty g2 rfl)

variable {g2 : Guid}

theorem mergedPartly {entry : ℕ} (h : p.CanBeMergedPartlyWith (t := t) g2 entry = .ok) :
    (p.items g2).entry = entry ∧ (p.items g2).count < (t entry).GetMaxStackSize := by
  unfold CanBeMergedPartlyWith at h
  split at h
  · simp at h
  split at h
  · simp at h
  split at h
  · simp at h
  · exact ⟨not_not.mp ‹_›, Nat.lt_of_not_le ‹_›⟩

theorem otherItem_some (h : p.otherItem (t := t) g bag slot = some g2) :
    g2 ≠ g ∧ ∃ place, p.resolve t bag slot = some place ∧ p.at? place = some g2 := by
  unfold otherItem GetItemByPos at h
  obtain ⟨hat, hne⟩ := Option.filter_eq_some_iff.mp h
  obtain ⟨place, hresolve, hplace⟩ := Option.bind_eq_some_iff.mp hat
  exact ⟨of_decide_eq_true hne, place, hresolve, hplace⟩

theorem hasSpace_merge (hother : p.otherItem (t := t) g bag slot = some g2)
    (hmerge : p.CanBeMergedPartlyWith (t := t) g2 (p.items g).entry = .ok) :
    HasSpace (Fits t p g) bag slot ((t (p.items g).entry).GetMaxStackSize - (p.items g2).count) := by
  obtain ⟨hentry, hlt⟩ := mergedPartly hmerge
  obtain ⟨-, place, hresolve, hat⟩ := otherItem_some hother
  refine ⟨by omega, fun k hpos hle => ⟨hpos, ?_, place, hresolve, ?_⟩⟩
  · show k ≤ (t (p.items g).entry).GetMaxStackSize
    omega
  · intro g3 hat3 _
    rw [hat, Option.some.injEq] at hat3
    rw [← hat3]
    refine ⟨hentry, ?_⟩
    show (p.items g2).count + k ≤ (t (p.items g).entry).GetMaxStackSize
    omega

theorem resolve_of_accepted {bag slot entry : ℕ} (h : p.emptySlotRefused (t := t) bag slot entry = false) :
    ∃ place, p.resolve t bag slot = some place := by
  unfold emptySlotRefused at h
  split at h
  · rename_i hown
    rw [decide_eq_false_iff_not] at h
    have hslot : slot < BANK_SLOT_BAG_END ∨ KEYRING_SLOT_START ≤ slot ∧ slot < CURRENCYTOKEN_SLOT_END := by
      simp only [BUYBACK_SLOT_START, BUYBACK_SLOT_END, PLAYER_SLOT_END, BANK_SLOT_BAG_END, KEYRING_SLOT_START,
        CURRENCYTOKEN_SLOT_END] at h ⊢
      omega
    exact ⟨.own slot, if_pos ⟨hown, hslot⟩⟩
  · rename_i hown
    cases hbag : p.GetBagByPos t bag with
    | none => simp [hbag] at h
    | some pBag =>
      rw [hbag] at h
      simp only [Bool.or_eq_false_iff, decide_eq_false_iff_not, Nat.not_le] at h
      refine ⟨.bag pBag slot, ?_⟩
      unfold resolve
      rw [if_neg fun hboth => hown hboth.1, hbag, Option.bind_some]
      exact if_pos h.1

/-! ### The searches -/

def Keeps (F : ItemPosCount → Prop) (n : ℕ) (search : Plan → Found) : Prop :=
  ∀ plan, plan.Good F n → 0 < plan.count →
    (search plan).2.Good F n ∧ ((search plan).1 ≠ .ok → (search plan).2 = plan)

/-- The rest of a function: where it says yes, the plan is complete and nothing was too many. -/
def Sure (F : ItemPosCount → Prop) (n noSimilar : ℕ) (next : Plan → Found) : Prop :=
  ∀ plan, plan.Good F n → 0 < plan.count → (next plan).1 = .ok →
    (next plan).2.Good F n ∧ (next plan).2.count = 0 ∧ noSimilar = 0

variable {noSimilar : ℕ}

theorem sure_error {msg : InventoryResult} (hmsg : msg ≠ .ok) : Sure F n noSimilar fun plan => (msg, plan) :=
  fun _ _ _ hok => absurd hok hmsg

variable {next : Plan → Found}

theorem required_ok {found : Found}
    (hok : (required noSimilar found next).1 = .ok) :
    found.1 = .ok ∧ (found.2.count = 0 ∧ noSimilar = 0 ∧ required noSimilar found next = (.ok, found.2) ∨
      found.2.count ≠ 0 ∧ required noSimilar found next = next found.2) := by
  unfold required at hok ⊢
  by_cases hfound : found.1 = .ok
  · rw [if_neg (not_not.mpr hfound)] at hok ⊢
    refine ⟨hfound, ?_⟩
    by_cases hzero : found.2.count = 0
    · rw [if_pos hzero] at hok ⊢
      by_cases hsimilar : noSimilar = 0
      · rw [if_pos hsimilar]
        exact .inl ⟨hzero, hsimilar, rfl⟩
      · rw [if_neg hsimilar] at hok
        simp at hok
    · rw [if_neg hzero]
      exact .inr ⟨hzero, rfl⟩
  · rw [if_pos hfound] at hok
    exact absurd hok hfound

theorem sure_required {search next : Plan → Found} (hsearch : Keeps F n search)
    (hnext : Sure F n noSimilar next) :
    Sure F n noSimilar fun plan => required noSimilar (search plan) next := by
  intro plan h hcount hok
  obtain ⟨hgood, -⟩ := hsearch plan h hcount
  simp only at hok ⊢
  obtain ⟨-, ⟨hzero, hsimilar, heq⟩ | ⟨hrest, heq⟩⟩ := required_ok hok
  · rw [heq]
    exact ⟨hgood, hzero, hsimilar⟩
  · rw [heq] at hok ⊢
    exact hnext _ hgood (Nat.pos_of_ne_zero hrest) hok

theorem sure_tryBags {search : ℕ → Plan → Found}
    (hsearch : ∀ i, Keeps F n (search i)) (hnext : Sure F n noSimilar next) (bags : List ℕ) :
    Sure F n noSimilar (tryBags noSimilar search next bags) := by
  induction bags with
  | nil => exact hnext
  | cons i rest ih =>
    intro plan h hcount hok
    obtain ⟨hgood, hsame⟩ := hsearch i plan h hcount
    unfold tryBags at hok ⊢
    split at hok
    · rename_i hfull
      rw [if_pos hfull]
      simp only at hok
      split at hok
      · exact ⟨hgood, hfull.2, ‹_›⟩
      · simp at hok
    · rename_i hrest
      rw [if_neg hrest]
      refine ih _ hgood (Nat.pos_of_ne_zero fun hzero => ?_) hok
      by_cases hfound : (search i plan).1 = .ok
      · exact hrest ⟨hfound, hzero⟩
      · rw [hsame hfound] at hzero
        omega

theorem sure_guardedBy {c : Bool} {b : (Plan → Found) → Plan → Found}
    (hblock : Sure F n noSimilar (b next)) (hnext : Sure F n noSimilar next) :
    Sure F n noSimilar (guardedBy c b next) := by
  intro plan
  unfold guardedBy
  split
  · exact hblock plan
  · exact hnext plan

section Blocks
variable (hF : ∀ d, Fits t p g d → F d)
include hF

theorem good_trySlot (h : plan.Good F n) (hcount : 0 < plan.count) (merge : Bool)
    {place : Place} (hresolve : p.resolve t bag slot = some place) :
    (p.trySlot (t := t) bag slot (p.items g).entry merge g plan).Good F n := by
  unfold trySlot
  cases hother : p.otherItem (t := t) g bag slot with
  | none =>
    simp only
    split
    · exact h
    · exact h.push hcount ((hasSpace_empty hresolve hother).mono hF)
  | some g2 =>
    simp only
    split
    · exact h
    split
    · exact h
    · rename_i hmerge
      exact h.push hcount ((hasSpace_merge hother (not_not.mp hmerge)).mono hF)

theorem good_trySlots (bag : ℕ) (merge : Bool) (skip : ℕ → Bool) {slots : List ℕ}
    (hslots : ∀ j ∈ slots, ∃ place, p.resolve t bag j = some place) :
    ∀ plan : Plan, plan.Good F n → 0 < plan.count →
      (p.trySlots (t := t) bag (p.items g).entry merge g skip slots plan).Good F n := by
  induction slots with
  | nil => exact fun plan h _ => h
  | cons j rest ih =>
    intro plan h hcount
    have hrest := ih fun i hi => hslots i (List.mem_cons_of_mem _ hi)
    obtain ⟨place, hresolve⟩ := hslots j List.mem_cons_self
    have hslot := good_trySlot hF h hcount merge hresolve
    unfold trySlots
    split
    · exact hrest plan h hcount
    split
    · exact hslot
    · exact hrest _ hslot (Nat.pos_of_ne_zero ‹_›)

theorem keeps_InBag (merge non_specialized : Bool) (skip_bag skip_slot bag : ℕ) :
    Keeps F n (p.CanStoreItem_InBag (t := t) (p.items g).entry merge non_specialized g skip_bag skip_slot bag) := by
  intro plan h hcount
  unfold CanStoreItem_InBag
  split
  · exact ⟨h, fun _ => rfl⟩
  cases hbag : p.GetBagByPos t bag with
  | none => exact ⟨h, fun _ => rfl⟩
  | some pBag =>
    simp only
    split
    · exact ⟨h, fun _ => rfl⟩
    split
    · exact ⟨h, fun _ => rfl⟩
    split
    · exact ⟨h, fun _ => rfl⟩
    split
    · exact ⟨h, fun _ => rfl⟩
    refine ⟨good_trySlots hF bag merge _ ?_ plan h hcount, fun hne => absurd rfl hne⟩
    intro j hj
    refine ⟨.bag pBag j, ?_⟩
    unfold resolve
    rw [if_neg fun hown => (GetBagByPos_spec hbag).2.2.1 hown.1, hbag, Option.bind_some,
      if_pos (List.mem_range.mp hj)]

theorem keeps_InInventorySlots (slot_begin slot_end : ℕ) (merge : Bool) (skip_bag skip_slot : ℕ)
    (hrange : slot_end ≤ BANK_SLOT_BAG_END ∨
      KEYRING_SLOT_START ≤ slot_begin ∧ slot_end ≤ CURRENCYTOKEN_SLOT_END) :
    Keeps F n
      (p.CanStoreItem_InInventorySlots (t := t) slot_begin slot_end (p.items g).entry merge g skip_bag skip_slot) := by
  intro plan h hcount
  unfold CanStoreItem_InInventorySlots
  split
  · exact ⟨h, fun _ => rfl⟩
  refine ⟨good_trySlots hF INVENTORY_SLOT_BAG_0 merge _ ?_ plan h hcount, fun hne => absurd rfl hne⟩
  intro j hj
  obtain ⟨hge, hlt⟩ := List.mem_range'_1.mp hj
  have hslot : j < BANK_SLOT_BAG_END ∨ KEYRING_SLOT_START ≤ j ∧ j < CURRENCYTOKEN_SLOT_END := by omega
  exact ⟨.own j, if_pos ⟨rfl, hslot⟩⟩

theorem keeps_searchBag (merge : Bool) (slot bag : ℕ) :
    Keeps F n (p.searchBag (t := t) (p.items g).entry merge g slot bag) := by
  intro plan h hcount
  obtain ⟨hgood, hsame⟩ := keeps_InBag hF merge false NULL_BAG slot bag plan h hcount
  unfold searchBag
  split
  · rename_i hne
    rw [hsame hne]
    exact keeps_InBag hF merge true NULL_BAG slot bag plan h hcount
  · exact ⟨hgood, hsame⟩

theorem keeps_InSpecificSlot (bag slot : ℕ) :
    Keeps F n (p.CanStoreItem_InSpecificSlot (t := t) bag slot (p.items g).entry false g) := by
  intro plan h hcount
  unfold CanStoreItem_InSpecificSlot
  cases hother : p.otherItem (t := t) g bag slot with
  | none =>
    simp only
    split
    · exact ⟨h, fun _ => rfl⟩
    rw [if_pos (by rfl)]
    split
    · exact ⟨h, fun _ => rfl⟩
    · rename_i haccepted
      obtain ⟨place, hresolve⟩ := resolve_of_accepted (by simpa using haccepted)
      exact ⟨h.push hcount ((hasSpace_empty hresolve hother).mono hF), fun hne => absurd rfl hne⟩
  | some g2 =>
    simp only
    split
    · exact ⟨h, fun _ => rfl⟩
    rw [if_neg (by simp)]
    split
    · exact ⟨h, fun _ => rfl⟩
    · rename_i hmerge
      exact ⟨h.push hcount ((hasSpace_merge hother (not_not.mp hmerge)).mono hF), fun hne => absurd rfl hne⟩

/-! ### The blocks -/

variable {noSimilar : ℕ} {next : Plan → Found} (bag slot : ℕ)

theorem keeps_keyring (merge : Bool) : Keeps F n (p.CanStoreItem_InInventorySlots (t := t) KEYRING_SLOT_START
    KEYRING_SLOT_END (p.items g).entry merge g bag slot) :=
  keeps_InInventorySlots hF _ _ merge bag slot (by decide)

theorem keeps_tokens (merge : Bool) : Keeps F n (p.CanStoreItem_InInventorySlots (t := t) CURRENCYTOKEN_SLOT_START
    CURRENCYTOKEN_SLOT_END (p.items g).entry merge g bag slot) :=
  keeps_InInventorySlots hF _ _ merge bag slot (by decide)

theorem keeps_backpack (merge : Bool) : Keeps F n (p.CanStoreItem_InInventorySlots (t := t)
    INVENTORY_SLOT_ITEM_START INVENTORY_SLOT_ITEM_END (p.items g).entry merge g bag slot) :=
  keeps_InInventorySlots hF _ _ merge bag slot (by decide)

theorem keeps_bankSlots (merge : Bool) : Keeps F n (p.CanStoreItem_InInventorySlots (t := t)
    BANK_SLOT_ITEM_START BANK_SLOT_ITEM_END (p.items g).entry merge g bag slot) :=
  keeps_InInventorySlots hF _ _ merge bag slot (by decide)

theorem sure_familySlots (hnext : Sure F n noSimilar next) (withTokens : Bool) :
    Sure F n noSimilar (p.familySlots t (p.items g).entry noSimilar g bag slot withTokens next) := by
  have htokens := sure_required (keeps_tokens hF bag slot false) hnext
  intro plan
  unfold familySlots
  split
  · exact sure_required (keeps_keyring hF bag slot false) (sure_guardedBy htokens hnext) plan
  split
  · exact htokens plan
  · exact hnext plan

theorem sure_mergeSlots (hnext : Sure F n noSimilar next) :
    Sure F n noSimilar (p.mergeSlots t (p.items g).entry noSimilar g bag slot next) := by
  unfold mergeSlots
  apply sure_required (keeps_InInventorySlots hF _ _ true bag slot (by decide))
  exact sure_required (keeps_backpack hF bag slot true) hnext

theorem sure_mergeGiven (hnext : Sure F n noSimilar next) :
    Sure F n noSimilar fun plan =>
      if bag = INVENTORY_SLOT_BAG_0 then p.mergeSlots t (p.items g).entry noSimilar g bag slot next plan
      else required noSimilar (p.searchBag (t := t) (p.items g).entry true g slot bag plan) next := by
  intro plan
  split
  · exact sure_mergeSlots hF bag slot hnext plan
  · exact sure_required (keeps_searchBag hF true slot bag) hnext plan

theorem sure_storeInGivenBag (hnext : Sure F n noSimilar next) :
    Sure F n noSimilar (p.storeInGivenBag (t := t) (p.items g).entry noSimilar g bag slot next) := by
  have hfree : Sure F n noSimilar fun plan =>
      if bag = INVENTORY_SLOT_BAG_0 then
        p.familySlots t (p.items g).entry noSimilar g bag slot true
          (fun plan => required noSimilar (p.CanStoreItem_InInventorySlots (t := t) INVENTORY_SLOT_ITEM_START
            INVENTORY_SLOT_ITEM_END (p.items g).entry false g bag slot plan) next) plan
      else required noSimilar (p.searchBag (t := t) (p.items g).entry false g slot bag plan) next := by
    intro plan
    split
    · exact sure_familySlots hF bag slot (sure_required (keeps_backpack hF bag slot false) hnext) true plan
    · exact sure_required (keeps_searchBag hF false slot bag) hnext plan
  unfold storeInGivenBag
  exact sure_guardedBy (sure_mergeGiven hF bag slot hfree) hfree

theorem sure_storeAnywhere :
    Sure F n noSimilar (p.storeAnywhere (t := t) (p.items g).entry noSimilar g bag slot) := by
  have hfull : Sure F n noSimilar fun plan => (.inventoryFull, plan) := sure_error (by simp)
  have hbackpack : Sure F n noSimilar fun plan =>
      if p.IsNotEmptyBag t g then (.nonemptyBagOverOtherBag, plan)
      else
        required noSimilar (p.CanStoreItem_InInventorySlots (t := t) INVENTORY_SLOT_ITEM_START
          INVENTORY_SLOT_ITEM_END (p.items g).entry false g bag slot plan)
          (tryBags noSimilar (p.CanStoreItem_InBag (t := t) (p.items g).entry false true g bag slot)
            (fun plan => (.inventoryFull, plan)) inventoryBags) := by
    intro plan
    split
    · exact sure_error (by simp) plan
    · exact sure_required (keeps_backpack hF bag slot false)
        (sure_tryBags (fun i => keeps_InBag hF false true bag slot i) hfull _) plan
  have hfree := sure_guardedBy (c := decide ((t (p.items g).entry).bagFamily ≠ 0))
    (b := fun next => p.familySlots t (p.items g).entry noSimilar g bag slot false
      (tryBags noSimilar (p.CanStoreItem_InBag (t := t) (p.items g).entry false false g bag slot) next inventoryBags))
    (sure_familySlots hF bag slot (sure_tryBags (fun i => keeps_InBag hF false false bag slot i) hbackpack _) false)
    hbackpack
  unfold storeAnywhere
  apply sure_guardedBy _ hfree
  apply sure_mergeSlots hF
  have hmerged := sure_tryBags (fun i => keeps_InBag hF true true bag slot i) hfree inventoryBags
  exact sure_guardedBy (sure_tryBags (fun i => keeps_InBag hF true false bag slot i) hmerged _) hmerged

theorem sure_bankInGivenBag (hnext : Sure F n 0 next) :
    Sure F n 0 (p.bankInGivenBag (t := t) (p.items g).entry g bag slot next) := by
  have hsearch : ∀ merge : Bool, Keeps F n fun plan =>
      if bag = INVENTORY_SLOT_BAG_0 then
        p.CanStoreItem_InInventorySlots (t := t) BANK_SLOT_ITEM_START BANK_SLOT_ITEM_END (p.items g).entry merge g bag
          slot plan
      else p.searchBag (t := t) (p.items g).entry merge g slot bag plan := by
    intro merge plan
    split
    · exact keeps_bankSlots hF bag slot merge plan
    · exact keeps_searchBag hF merge slot bag plan
  have hfree := sure_required (hsearch false) hnext
  intro plan
  unfold bankInGivenBag
  split
  · exact sure_error (by simp) plan
  · exact sure_guardedBy (sure_required (hsearch true) hfree) hfree plan

theorem sure_bankAnywhere : Sure F n 0 (p.bankAnywhere (t := t) (p.items g).entry g bag slot) := by
  have hfull : Sure F n 0 fun plan => (.bankFull, plan) := sure_error (by simp)
  have hslots := sure_required (keeps_bankSlots hF bag slot false)
    (sure_tryBags (fun i => keeps_InBag hF (p := p) (t := t) (g := g) (n := n) false true bag slot i) hfull bankBags)
  have hfree := sure_guardedBy (c := decide ((t (p.items g).entry).bagFamily ≠ 0))
    (b := fun next =>
      tryBags 0 (p.CanStoreItem_InBag (t := t) (p.items g).entry false false g bag slot) next bankBags)
    (sure_tryBags (fun i => keeps_InBag hF false false bag slot i) hslots _) hslots
  unfold bankAnywhere
  apply sure_guardedBy _ hfree
  apply sure_required (keeps_bankSlots hF bag slot true)
  have hmerged := sure_tryBags (fun i => keeps_InBag hF true true bag slot i) hfree bankBags
  exact sure_guardedBy (sure_tryBags (fun i => keeps_InBag hF true false bag slot i) hmerged _) hmerged

end Blocks

/-! ### The two functions -/

theorem keeps_InSpecificSlot_any (bag slot : ℕ) (swap : Bool) :
    Keeps (fun _ => True) n (p.CanStoreItem_InSpecificSlot (t := t) bag slot (p.items g).entry swap g) := by
  intro plan h hcount
  have hpush : ∀ space, 1 ≤ space → (plan.push bag slot space).Good (fun _ => True) n :=
    fun space hspace => h.push hcount ⟨hspace, fun _ _ _ => trivial⟩
  unfold CanStoreItem_InSpecificSlot
  simp only
  split
  · exact ⟨h, fun _ => rfl⟩
  split
  · split
    · exact ⟨h, fun _ => rfl⟩
    · exact ⟨hpush _ (ItemTemplate.GetMaxStackSize_pos _), fun hne => absurd rfl hne⟩
  · cases hother : p.otherItem (t := t) g bag slot with
    | none => exact ⟨h, fun _ => rfl⟩
    | some g2 =>
      simp only
      split
      · exact ⟨h, fun _ => rfl⟩
      · rename_i hmerge
        obtain ⟨-, hlt⟩ := mergedPartly (not_not.mp hmerge)
        exact ⟨hpush _ (by omega), fun hne => absurd rfl hne⟩

def startCount (checks : Checks t) (p : Player) (g : Guid) : ℕ :=
  if (checks.canTakeMoreSimilarItems p g (p.items g).count).1 ≠ .ok then
    subU32 (p.items g).count (checks.canTakeMoreSimilarItems p g (p.items g).count).2
  else (p.items g).count

def storeSearch (checks : Checks t) (p : Player) (g : Guid) (bag slot : ℕ) (swap : Bool) : Plan → Found :=
  guardedBy (decide (bag ≠ NULL_BAG ∧ slot ≠ NULL_SLOT))
    (fun next plan => required (checks.canTakeMoreSimilarItems p g (p.items g).count).2
      (p.CanStoreItem_InSpecificSlot (t := t) bag slot (p.items g).entry swap g plan) next)
    (guardedBy (decide (bag ≠ NULL_BAG))
      (p.storeInGivenBag (t := t) (p.items g).entry (checks.canTakeMoreSimilarItems p g (p.items g).count).2 g bag slot)
      (p.storeAnywhere (t := t) (p.items g).entry (checks.canTakeMoreSimilarItems p g (p.items g).count).2 g bag slot))

variable {checks : Checks t} {swap : Bool}

theorem CanStoreItem_ok
    (hcount : 1 ≤ (p.items g).count ∧ (p.items g).count ≤ (p.template t g).GetMaxStackSize)
    (hok : (p.CanStoreItem checks bag slot g swap).1 = .ok) :
    0 < startCount checks p g ∧
      (storeSearch checks p g bag slot swap ⟨[], startCount checks p g⟩).1 = .ok ∧
      (p.CanStoreItem checks bag slot g swap).2 =
        (storeSearch checks p g bag slot swap ⟨[], startCount checks p g⟩).2.dest := by
  have hlt := hcount.2.trans_lt (p.template t g).GetMaxStackSize_lt
  have hsimilar := checks.similar_lt p g (p.items g).count
  unfold CanStoreItem at hok ⊢
  simp only at hok ⊢
  split at hok
  · simp at hok
  rename_i h1
  rw [if_neg h1]
  split at hok
  · simp at hok
  rename_i h2
  rw [if_neg h2]
  split at hok
  · simp at hok
  rename_i h3
  rw [if_neg h3]
  split at hok
  · rename_i hall
    exact absurd hok hall.1
  rename_i h4
  rw [if_neg h4]
  refine ⟨?_, hok, rfl⟩
  unfold startCount
  split
  · rename_i hsome
    have hne : (p.items g).count ≠ (checks.canTakeMoreSimilarItems p g (p.items g).count).2 :=
      fun heq => h4 ⟨hsome, heq⟩
    unfold subU32 u32
    omega
  · exact hcount.1

theorem sure_storeSearch (hF : ∀ d, Fits t p g d → F d)
    (hspecific : Keeps F n (p.CanStoreItem_InSpecificSlot (t := t) bag slot (p.items g).entry swap g)) :
    Sure F n (checks.canTakeMoreSimilarItems p g (p.items g).count).2 (storeSearch checks p g bag slot swap) := by
  unfold storeSearch
  generalize (checks.canTakeMoreSimilarItems p g (p.items g).count).2 = k
  have hstore : Sure F n k (p.storeAnywhere (t := t) (p.items g).entry k g bag slot) := sure_storeAnywhere hF bag slot
  have hanywhere := sure_guardedBy (c := decide (bag ≠ NULL_BAG)) (sure_storeInGivenBag hF bag slot hstore) hstore
  exact sure_guardedBy (sure_required hspecific hanywhere) hanywhere

theorem startCount_eq
    (hcount : (p.items g).count ≤ (p.template t g).GetMaxStackSize)
    (hsimilar : (checks.canTakeMoreSimilarItems p g (p.items g).count).2 = 0) :
    startCount checks p g = (p.items g).count := by
  have hlt := hcount.trans_lt (p.template t g).GetMaxStackSize_lt
  unfold startCount
  rw [hsimilar, subU32_of_le (Nat.zero_le _) (by omega), Nat.sub_zero, ite_self]

theorem CanStoreItem_complete
    (hcount : 1 ≤ (p.items g).count ∧ (p.items g).count ≤ (p.template t g).GetMaxStackSize)
    (hok : (p.CanStoreItem checks bag slot g false).1 = .ok) :
    Complete t p g (p.items g).count (p.CanStoreItem checks bag slot g false).2 := by
  obtain ⟨hpos, hsearch, hdest⟩ := CanStoreItem_ok hcount hok
  obtain ⟨hgood, hzero, hsimilar⟩ := sure_storeSearch (fun _ h => h) (keeps_InSpecificSlot (fun _ h => h) bag slot) _
    (good_nil (Fits t p g) (startCount checks p g)) hpos hsearch
  rw [hdest]
  have hcomplete := hgood.complete hzero
  rw [startCount_eq hcount.2 hsimilar] at hcomplete ⊢
  exact hcomplete

def specific (t : Templates) (p : Player) (g : Guid) (bag slot : ℕ) (swap : Bool) : Found :=
  p.CanStoreItem_InSpecificSlot (t := t) bag slot (p.items g).entry swap g ⟨[], (p.items g).count⟩

theorem CanStoreItem_explicit
    (hexplicit : bag ≠ NULL_BAG ∧ slot ≠ NULL_SLOT)
    (hcount : 1 ≤ (p.items g).count ∧ (p.items g).count ≤ (p.template t g).GetMaxStackSize)
    (hok : (p.CanStoreItem checks bag slot g swap).1 = .ok) :
    (specific t p g bag slot swap).1 = .ok ∧ ((specific t p g bag slot swap).2.count = 0 →
      (p.CanStoreItem checks bag slot g swap).2 = (specific t p g bag slot swap).2.dest) := by
  obtain ⟨hpos, hsearch, hdest⟩ := CanStoreItem_ok hcount hok
  obtain ⟨-, -, hsimilar⟩ := sure_storeSearch (F := fun _ => True) (fun _ _ => trivial)
    (keeps_InSpecificSlot_any bag slot swap) _ (good_nil _ _) hpos hsearch
  rw [startCount_eq hcount.2 hsimilar] at hsearch hdest
  rw [hdest]
  unfold storeSearch guardedBy at hsearch ⊢
  rw [if_pos (decide_eq_true hexplicit)] at hsearch ⊢
  beta_reduce at hsearch ⊢
  obtain ⟨hfound, ⟨hzero, -, heq⟩ | ⟨hrest, -⟩⟩ := required_ok hsearch
  · refine ⟨hfound, fun _ => ?_⟩
    rw [heq]
    rfl
  · exact ⟨hfound, fun hzero => absurd hzero hrest⟩

/-! ### The bank -/

def bankSearch (checks : Checks t) (p : Player) (g : Guid) (bag slot : ℕ) (swap : Bool) : Plan → Found :=
  guardedBy (decide (bag ≠ NULL_BAG ∧ slot ≠ NULL_SLOT))
    (fun next plan =>
      if p.bankBagRefused checks slot g ≠ .ok then (p.bankBagRefused checks slot g, plan)
      else required 0 (p.CanStoreItem_InSpecificSlot (t := t) bag slot (p.items g).entry swap g plan) next)
    (guardedBy (decide (bag ≠ NULL_BAG)) (p.bankInGivenBag (t := t) (p.items g).entry g bag slot)
      (p.bankAnywhere (t := t) (p.items g).entry g bag slot))

theorem CanBankItem_ok
    (hok : (p.CanBankItem checks bag slot g swap).1 = .ok) :
    (bankSearch checks p g bag slot swap ⟨[], (p.items g).count⟩).1 = .ok ∧
      (p.CanBankItem checks bag slot g swap).2 =
        (bankSearch checks p g bag slot swap ⟨[], (p.items g).count⟩).2.dest := by
  unfold CanBankItem at hok ⊢
  simp only at hok ⊢
  split at hok
  · simp at hok
  rename_i h1
  rw [if_neg h1]
  split at hok
  · simp at hok
  rename_i h2
  rw [if_neg h2]
  split at hok
  · simp at hok
  rename_i h3
  rw [if_neg h3]
  split at hok
  · exact absurd hok ‹_›
  rename_i h4
  rw [if_neg h4]
  exact ⟨hok, rfl⟩

theorem CanBankItem_complete
    (hcount : 1 ≤ (p.items g).count) (hok : (p.CanBankItem checks bag slot g false).1 = .ok) :
    Complete t p g (p.items g).count (p.CanBankItem checks bag slot g false).2 := by
  obtain ⟨hsearch, hdest⟩ := CanBankItem_ok hok
  have hkeep : ∀ d, Fits t p g d → Fits t p g d := fun _ h => h
  have hanywhere := sure_guardedBy (n := (p.items g).count) (c := decide (bag ≠ NULL_BAG))
    (sure_bankInGivenBag hkeep bag slot (sure_bankAnywhere hkeep bag slot)) (sure_bankAnywhere hkeep bag slot)
  have hsure : Sure (Fits t p g) (p.items g).count 0 (bankSearch checks p g bag slot false) := by
    refine sure_guardedBy ?_ hanywhere
    intro plan
    split
    · exact sure_error ‹_› plan
    · exact sure_required (keeps_InSpecificSlot hkeep bag slot) hanywhere plan
  obtain ⟨hgood, hzero, -⟩ := hsure _ (good_nil _ _) hcount hsearch
  rw [hdest]
  exact hgood.complete hzero

theorem CanBankItem_explicit
    (hexplicit : bag ≠ NULL_BAG ∧ slot ≠ NULL_SLOT)
    (hok : (p.CanBankItem checks bag slot g swap).1 = .ok) :
    (specific t p g bag slot swap).1 = .ok ∧ ((specific t p g bag slot swap).2.count = 0 →
      (p.CanBankItem checks bag slot g swap).2 = (specific t p g bag slot swap).2.dest) := by
  obtain ⟨hsearch, hdest⟩ := CanBankItem_ok hok
  rw [hdest]
  unfold bankSearch guardedBy at hsearch ⊢
  rw [if_pos (decide_eq_true hexplicit)] at hsearch ⊢
  beta_reduce at hsearch ⊢
  split at hsearch
  · exact absurd hsearch ‹_›
  rename_i hbag
  rw [if_neg hbag]
  obtain ⟨hfound, ⟨hzero, -, heq⟩ | ⟨hrest, -⟩⟩ := required_ok hsearch
  · refine ⟨hfound, fun _ => ?_⟩
    rw [heq]
    rfl
  · exact ⟨hfound, fun hzero => absurd hzero hrest⟩

/-! ### An explicit position -/

theorem specific_single (hcount : (p.items g).count ≤ (p.template t g).GetMaxStackSize)
    (hroom : swap = true ∨ ∀ g2, p.otherItem (t := t) g bag slot = some g2 →
      (p.items g).count + (p.items g2).count ≤ (p.template t g).GetMaxStackSize)
    (hok : (specific t p g bag slot swap).1 = .ok) :
    (specific t p g bag slot swap).2 = ⟨[⟨bag, slot, (p.items g).count⟩], 0⟩ ∧
      ∃ place, p.resolve t bag slot = some place := by
  have hpush : ∀ space, (p.items g).count ≤ space →
      (⟨[], (p.items g).count⟩ : Plan).push bag slot space = ⟨[⟨bag, slot, (p.items g).count⟩], 0⟩ := by
    intro space hspace
    simp [Plan.push, Nat.min_eq_right hspace]
  unfold specific CanStoreItem_InSpecificSlot at hok ⊢
  simp only at hok ⊢
  split at hok
  · simp at hok
  rename_i hbags
  rw [if_neg hbags]
  split at hok
  · rename_i hfree
    rw [if_pos hfree]
    split at hok
    · simp at hok
    rename_i haccepted
    rw [if_neg haccepted]
    exact ⟨hpush _ hcount, resolve_of_accepted (by simpa using haccepted)⟩
  · rename_i hfree
    rw [if_neg hfree]
    cases hother : p.otherItem (t := t) g bag slot with
    | none => simp [hother] at hfree
    | some g2 =>
      rw [hother] at hok
      simp only at hok ⊢
      split at hok
      · exact absurd hok ‹_›
      rename_i hmerge
      rw [if_neg hmerge]
      obtain ⟨-, place, hresolve, -⟩ := otherItem_some hother
      refine ⟨hpush _ ?_, place, hresolve⟩
      have hswap : swap = false := by
        rw [hother] at hfree
        simpa using hfree
      have hsum := hroom.resolve_left (by simp [hswap]) g2 hother
      unfold template at hsum
      omega

theorem specific_entry (hother : p.otherItem (t := t) g bag slot = some g2)
    (hok : (specific t p g bag slot false).1 = .ok) : (p.items g2).entry = (p.items g).entry := by
  unfold specific CanStoreItem_InSpecificSlot at hok
  rw [hother] at hok
  simp only at hok
  split at hok
  · simp at hok
  rw [if_neg (by simp)] at hok
  split at hok
  · exact absurd hok ‹_›
  · rename_i hmerge
    exact (mergedPartly (not_not.mp hmerge)).1

end Player

end HysteriaCore.Inventory

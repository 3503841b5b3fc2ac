import HysteriaCore.Inventory.Plans
import Mathlib.Algebra.BigOperators.Group.Finset.Basic

/-!
# A plan as the filling of a list of positions

The stages of `CanStoreItem` come to one list of positions, in the order in which they are looked at. A plan
takes the free space of one after the other until everything has a place.
-/

namespace HysteriaCore.Inventory
open Lib

/-! ### Filling -/

def Plan.fill (space : ℕ × ℕ → ℕ) : List (ℕ × ℕ) → Plan → Plan
  | [], plan => plan
  | x :: xs, plan =>
    if (plan.push x.1 x.2 (space x)).count = 0 then plan.push x.1 x.2 (space x)
    else Plan.fill space xs (plan.push x.1 x.2 (space x))

def Plan.positions (plan : Plan) : List (ℕ × ℕ) := plan.dest.map ItemPosCount.pos

def room (space : ℕ × ℕ → ℕ) (xs : List (ℕ × ℕ)) : ℕ := ∑ x ∈ xs.toFinset, space x

variable {space : ℕ × ℕ → ℕ} {plan : Plan} {x y : ℕ × ℕ} {xs ys : List (ℕ × ℕ)} {n noSimilar : ℕ}

theorem Plan.push_old (h : x ∈ plan.positions) (k : ℕ) : plan.push x.1 x.2 k = plan := if_pos h

theorem Plan.push_new (h : x ∉ plan.positions) (k : ℕ) :
    plan.push x.1 x.2 k = ⟨plan.dest ++ [⟨x.1, x.2, min k plan.count⟩], plan.count - min k plan.count⟩ := if_neg h

theorem Plan.positions_push (k : ℕ) : y ∈ (plan.push x.1 x.2 k).positions ↔ y ∈ plan.positions ∨ y = x := by
  by_cases hold : x ∈ plan.positions
  · rw [push_old hold]
    constructor
    · exact .inl
    · intro h
      obtain hy | rfl := h
      · exact hy
      · exact hold
  · rw [push_new hold]
    unfold positions
    simp only [List.map_append, List.mem_append, List.map_cons, List.map_nil, List.mem_singleton]
    exact Iff.rfl

theorem Plan.fill_singleton : plan.fill space [x] = plan.push x.1 x.2 (space x) := by
  unfold fill
  split <;> rfl

theorem Plan.fill_cons : plan.fill space (x :: xs) =
    if (plan.push x.1 x.2 (space x)).count = 0 then plan.push x.1 x.2 (space x)
    else (plan.push x.1 x.2 (space x)).fill space xs := rfl

theorem Plan.fill_append (hcount : 0 < plan.count) : plan.fill space (xs ++ ys) =
    if (plan.fill space xs).count = 0 then plan.fill space xs else (plan.fill space xs).fill space ys := by
  induction xs generalizing plan with
  | nil => exact (if_neg (Nat.ne_of_gt hcount)).symm
  | cons x xs ih =>
    rw [List.cons_append, fill_cons, fill_cons]
    by_cases hzero : (plan.push x.1 x.2 (space x)).count = 0
    · rw [if_pos hzero, if_pos hzero, if_pos hzero]
    · rw [if_neg hzero, if_neg hzero]
      exact ih (Nat.pos_of_ne_zero hzero)

theorem Plan.fill_count (hcount : 0 < plan.count) :
    (plan.fill space xs).count = plan.count - ∑ x ∈ xs.toFinset \ plan.positions.toFinset, space x := by
  induction xs generalizing plan with
  | nil => simp [fill]
  | cons x xs ih =>
    rw [fill_cons]
    by_cases hold : x ∈ plan.positions
    · rw [push_old hold, if_neg (Nat.ne_of_gt hcount), ih hcount, List.toFinset_cons,
        Finset.insert_sdiff_of_mem _ (List.mem_toFinset.mpr hold)]
    · have hsum : ∑ y ∈ (x :: xs).toFinset \ plan.positions.toFinset, space y =
          space x + ∑ y ∈ xs.toFinset \ (plan.push x.1 x.2 (space x)).positions.toFinset, space y := by
        have hset : (x :: xs).toFinset \ plan.positions.toFinset =
            insert x (xs.toFinset \ (plan.push x.1 x.2 (space x)).positions.toFinset) := by
          ext y
          simp only [Finset.mem_sdiff, List.mem_toFinset, List.mem_cons, positions_push, Finset.mem_insert, not_or]
          by_cases hy : y = x
          · simp [hy, hold]
          · simp [hy]
        rw [hset, Finset.sum_insert]
        simp [positions_push]
      have hleft : (plan.push x.1 x.2 (space x)).count = plan.count - space x := by
        rw [push_new hold]
        show plan.count - min (space x) plan.count = plan.count - space x
        omega
      split
      · omega
      · rw [ih (Nat.pos_of_ne_zero ‹_›), hleft, hsum]
        omega

variable (space xs) in
theorem Plan.fill_nil_count (hn : 0 < n) : (Plan.fill space xs ⟨[], n⟩).count = n - room space xs := by
  rw [Plan.fill_count hn]
  unfold room positions
  simp

theorem Plan.positions_fill (h : y ∈ plan.positions) : y ∈ (plan.fill space xs).positions := by
  induction xs generalizing plan with
  | nil => exact h
  | cons x xs ih =>
    have hpush := (positions_push (x := x) (space x)).mpr (.inl h)
    rw [fill_cons]
    split
    · exact hpush
    · exact ih hpush

theorem Plan.mem_fill_nil (space : ℕ × ℕ → ℕ) (xs : List (ℕ × ℕ)) (hn : 0 < n) (y : ℕ × ℕ) :
    y ∈ (Plan.fill space xs ⟨[], n⟩).positions ↔ ∃ before after, xs = before ++ y :: after ∧ room space before < n := by
  constructor
  · induction xs using List.reverseRecOn with
    | nil => exact fun h => absurd h List.not_mem_nil
    | append_singleton xs x ih =>
      intro h
      have hbefore : y ∈ (Plan.fill space xs ⟨[], n⟩).positions →
          ∃ before after, xs ++ [x] = before ++ y :: after ∧ room space before < n := by
        intro hy
        obtain ⟨before, after, rfl, hroom⟩ := ih hy
        exact ⟨before, after ++ [x], by simp, hroom⟩
      by_cases hzero : (Plan.fill space xs ⟨[], n⟩).count = 0
      · rw [fill_append hn, if_pos hzero] at h
        exact hbefore h
      · rw [fill_append hn, if_neg hzero, fill_singleton, positions_push] at h
        obtain hy | rfl := h
        · exact hbefore hy
        · refine ⟨xs, [], rfl, ?_⟩
          rw [fill_nil_count space xs hn] at hzero
          omega
  · intro h
    obtain ⟨before, after, rfl, hroom⟩ := h
    have hleft : 0 < (Plan.fill space before ⟨[], n⟩).count := by
      rw [fill_nil_count space before hn]
      omega
    have hpush : y ∈ ((Plan.fill space before ⟨[], n⟩).push y.1 y.2 (space y)).positions :=
      (positions_push (space y)).mpr (.inr rfl)
    rw [fill_append hn, if_neg (Nat.ne_of_gt hleft)]
    rw [fill_cons]
    split
    · exact hpush
    · exact positions_fill hpush

theorem Plan.Good.fill {F : ItemPosCount → Prop} (h : plan.Good F n) (hcount : 0 < plan.count)
    (hspace : ∀ x ∈ xs, HasSpace F x.1 x.2 (space x)) : (plan.fill space xs).Good F n := by
  induction xs generalizing plan with
  | nil => exact h
  | cons x xs ih =>
    have hpush := h.push hcount (hspace x List.mem_cons_self)
    rw [Plan.fill_cons]
    split
    · exact hpush
    · exact ih hpush (Nat.pos_of_ne_zero ‹_›) fun y hy => hspace y (List.mem_cons_of_mem x hy)

namespace Player

/-! ### The stages -/

def Searches (space : ℕ × ℕ → ℕ) (search : Plan → Found) : Option (List (ℕ × ℕ)) → Prop
  | none => ∀ plan, (search plan).1 ≠ .ok ∧ (search plan).2 = plan
  | some xs => ∀ plan, 0 < plan.count → search plan = (.ok, plan.fill space xs)

/-- The rest of a function fills positions, and says yes where everything has a place and nothing was too many. -/
def Realizes (space : ℕ × ℕ → ℕ) (noSimilar : ℕ) (next : Plan → Found) (xs : List (ℕ × ℕ)) : Prop :=
  ∀ plan, 0 < plan.count → (next plan).2 = plan.fill space xs ∧
    ((next plan).1 = .ok ↔ (plan.fill space xs).count = 0 ∧ noSimilar = 0)

variable {search next : Plan → Found} {os : Option (List (ℕ × ℕ))}

theorem realizes_error {msg : InventoryResult} (hmsg : msg ≠ .ok) :
    Realizes space noSimilar (fun plan => (msg, plan)) [] := by
  intro plan hcount
  refine ⟨rfl, ?_⟩
  constructor
  · exact fun h => absurd h hmsg
  · exact fun h => absurd h.1 (Nat.ne_of_gt hcount)

theorem realizes_after (hnext : Realizes space noSimilar next ys) (hcount : 0 < plan.count) :
    let found := if (plan.fill space xs).count = 0 then
        (if noSimilar = 0 then InventoryResult.ok else .cantCarryMoreOfThis, plan.fill space xs)
      else next (plan.fill space xs)
    found.2 = plan.fill space (xs ++ ys) ∧
      (found.1 = .ok ↔ (plan.fill space (xs ++ ys)).count = 0 ∧ noSimilar = 0) := by
  rw [Plan.fill_append hcount]
  by_cases hzero : (plan.fill space xs).count = 0
  · by_cases hsimilar : noSimilar = 0
    · simp [hzero, hsimilar]
    · simp [hzero, hsimilar]
  · simp only [if_neg hzero]
    exact hnext _ (Nat.pos_of_ne_zero hzero)

theorem realizes_required (hsearch : Searches space search os) (hnext : Realizes space noSimilar next ys) :
    Realizes space noSimilar (fun plan => required noSimilar (search plan) next) (os.elim [] (· ++ ys)) := by
  intro plan hcount
  unfold required
  cases os with
  | none =>
    obtain ⟨hfailed, hsame⟩ := hsearch plan
    simp only [if_pos hfailed, Option.elim_none]
    refine ⟨hsame, ?_⟩
    constructor
    · exact fun h => absurd h hfailed
    · exact fun h => absurd h.1 (Nat.ne_of_gt hcount)
  | some xs =>
    simp only [hsearch plan hcount, ne_eq, not_true_eq_false, if_false, Option.elim_some]
    exact realizes_after hnext hcount

theorem realizes_tryBags {search : ℕ → Plan → Found} {os : ℕ → Option (List (ℕ × ℕ))} {bags : List ℕ}
    (hsearch : ∀ i ∈ bags, Searches space (search i) (os i)) (hnext : Realizes space noSimilar next ys) :
    Realizes space noSimilar (tryBags noSimilar search next bags) (bags.flatMap (fun i => (os i).getD []) ++ ys) := by
  induction bags with
  | nil => exact hnext
  | cons i bags ih =>
    have hrest := ih fun j hj => hsearch j (List.mem_cons_of_mem i hj)
    have hi := hsearch i List.mem_cons_self
    rw [List.flatMap_cons, List.append_assoc]
    intro plan hcount
    unfold tryBags
    cases hos : os i with
    | none =>
      rw [hos] at hi
      obtain ⟨hfailed, hsame⟩ := hi plan
      rw [if_neg fun h => hfailed h.1, hsame]
      exact hrest plan hcount
    | some xs =>
      rw [hos] at hi
      simp only [hi plan hcount, true_and, Option.getD_some]
      exact realizes_after hrest hcount

theorem realizes_guardedBy {c : Bool} {b : (Plan → Found) → Plan → Found}
    (hblock : Realizes space noSimilar (b next) xs) (hnext : Realizes space noSimilar next ys) :
    Realizes space noSimilar (guardedBy c b next) (if c then xs else ys) := by
  intro plan
  unfold guardedBy
  cases c with
  | true => exact hblock plan
  | false => exact hnext plan

/-! ### What is looked at -/

section Offers
variable (t : Templates) (p : Player) (entry : ℕ) (g : Guid)

def freeSpace (x : ℕ × ℕ) : ℕ :=
  (t entry).GetMaxStackSize - ((p.otherItem (t := t) g x.1 x.2).map fun pItem2 => (p.items pItem2).count).getD 0

def offered (merge : Bool) (x : ℕ × ℕ) : Bool :=
  match p.otherItem (t := t) g x.1 x.2 with
  | none => !merge
  | some pItem2 => merge && decide (p.CanBeMergedPartlyWith (t := t) pItem2 entry = .ok)

def slotOffers (bag : ℕ) (merge : Bool) (skip : ℕ → Bool) (slots : List ℕ) : List (ℕ × ℕ) :=
  ((slots.filter fun j => !skip j).map fun j => (bag, j)).filter (p.offered t entry g merge)

def inventoryOffers (slot_begin slot_end : ℕ) (merge : Bool) (skip_bag skip_slot : ℕ) : List (ℕ × ℕ) :=
  p.slotOffers t entry g INVENTORY_SLOT_BAG_0 merge (fun j => decide (INVENTORY_SLOT_BAG_0 = skip_bag ∧ j = skip_slot))
    (List.range' slot_begin (slot_end - slot_begin))

def bagOffers (merge non_specialized : Bool) (skip_bag skip_slot bag : ℕ) : Option (List (ℕ × ℕ)) :=
  match p.GetBagByPos t bag with
  | none => none
  | some pBag =>
    if bag ≠ skip_bag ∧ pBag ≠ g ∧
        non_specialized = decide ((p.template t pBag).itemClass = 1 ∧ (p.template t pBag).subClass = 0) ∧
        ItemCanGoIntoBag (t entry) (p.template t pBag) = true then
      some (p.slotOffers t entry g bag merge (fun j => decide (j = skip_slot)) (List.range (p.GetBagSize t pBag)))
    else none

def searchBagOffers (merge : Bool) (slot bag : ℕ) : Option (List (ℕ × ℕ)) :=
  (p.bagOffers t entry g merge false NULL_BAG slot bag).orElse fun _ =>
    p.bagOffers t entry g merge true NULL_BAG slot bag

def bagsOffers (merge non_specialized : Bool) (bag slot : ℕ) : List (ℕ × ℕ) :=
  inventoryBags.flatMap fun i => (p.bagOffers t entry g merge non_specialized bag slot i).getD []

def specificOffer (bag slot : ℕ) : Option (List (ℕ × ℕ)) :=
  match p.otherItem (t := t) g bag slot with
  | none => if p.emptySlotRefused (t := t) bag slot entry then none else some [(bag, slot)]
  | some pItem2 => if p.CanBeMergedPartlyWith (t := t) pItem2 entry = .ok then some [(bag, slot)] else none

def familyOffers (bag slot : ℕ) (withTokens : Bool) (rest : List (ℕ × ℕ)) : List (ℕ × ℕ) :=
  if (t entry).hasFamily 8 then
    p.inventoryOffers t entry g KEYRING_SLOT_START KEYRING_SLOT_END false bag slot ++
      if withTokens then
        p.inventoryOffers t entry g CURRENCYTOKEN_SLOT_START CURRENCYTOKEN_SLOT_END false bag slot ++ rest
      else rest
  else if (t entry).IsCurrencyToken then
    p.inventoryOffers t entry g CURRENCYTOKEN_SLOT_START CURRENCYTOKEN_SLOT_END false bag slot ++ rest
  else rest

def mergeOffers (bag slot : ℕ) (rest : List (ℕ × ℕ)) : List (ℕ × ℕ) :=
  p.inventoryOffers t entry g KEYRING_SLOT_START CURRENCYTOKEN_SLOT_END true bag slot ++
    (p.inventoryOffers t entry g INVENTORY_SLOT_ITEM_START INVENTORY_SLOT_ITEM_END true bag slot ++ rest)

def givenBagOffers (bag slot : ℕ) (rest : List (ℕ × ℕ)) : List (ℕ × ℕ) :=
  let free :=
    if bag = INVENTORY_SLOT_BAG_0 then
      p.familyOffers t entry g bag slot true
        (p.inventoryOffers t entry g INVENTORY_SLOT_ITEM_START INVENTORY_SLOT_ITEM_END false bag slot ++ rest)
    else (p.searchBagOffers t entry g false slot bag).elim [] (· ++ rest)
  if decide ((t entry).stackable ≠ 1) then
    if bag = INVENTORY_SLOT_BAG_0 then p.mergeOffers t entry g bag slot free
    else (p.searchBagOffers t entry g true slot bag).elim [] (· ++ free)
  else free

def anywhereOffers (bag slot : ℕ) : List (ℕ × ℕ) :=
  let last := p.inventoryOffers t entry g INVENTORY_SLOT_ITEM_START INVENTORY_SLOT_ITEM_END false bag slot ++
    (p.bagsOffers t entry g false true bag slot ++ [])
  let free :=
    if decide ((t entry).bagFamily ≠ 0) then
      p.familyOffers t entry g bag slot false (p.bagsOffers t entry g false false bag slot ++ last)
    else last
  if decide ((t entry).stackable ≠ 1) then
    p.mergeOffers t entry g bag slot
      (if decide ((t entry).bagFamily ≠ 0) then
        p.bagsOffers t entry g true false bag slot ++ (p.bagsOffers t entry g true true bag slot ++ free)
      else p.bagsOffers t entry g true true bag slot ++ free)
  else free

def storeOffers (bag slot : ℕ) : List (ℕ × ℕ) :=
  let rest :=
    if decide (bag ≠ NULL_BAG) then p.givenBagOffers t entry g bag slot (p.anywhereOffers t entry g bag slot)
    else p.anywhereOffers t entry g bag slot
  if decide (bag ≠ NULL_BAG ∧ slot ≠ NULL_SLOT) then (p.specificOffer t entry g bag slot).elim [] (· ++ rest) else rest

end Offers

variable {t : Templates} {p : Player} {entry : ℕ} {g : Guid}

theorem trySlot_eq (bag slot : ℕ) (merge : Bool) (plan : Plan) :
    p.trySlot (t := t) bag slot entry merge g plan =
      if p.offered t entry g merge (bag, slot) then plan.push bag slot (p.freeSpace t entry g (bag, slot)) else plan := by
  unfold trySlot offered freeSpace
  cases p.otherItem (t := t) g bag slot with
  | none => cases merge <;> simp
  | some g2 =>
    cases merge with
    | false => simp
    | true => by_cases hmerge : p.CanBeMergedPartlyWith (t := t) g2 entry = .ok <;> simp [hmerge]

theorem trySlots_eq (bag : ℕ) (merge : Bool) (skip : ℕ → Bool) (slots : List ℕ) {plan : Plan} (hcount : 0 < plan.count) :
    p.trySlots (t := t) bag entry merge g skip slots plan =
      plan.fill (p.freeSpace t entry g) (p.slotOffers t entry g bag merge skip slots) := by
  induction slots generalizing plan with
  | nil => rfl
  | cons j rest ih =>
    unfold trySlots
    cases hskip : skip j with
    | true =>
      have hsame : p.slotOffers t entry g bag merge skip (j :: rest) = p.slotOffers t entry g bag merge skip rest := by
        simp [slotOffers, hskip]
      rw [if_pos rfl, ih hcount, hsame]
    | false =>
      rw [if_neg (by decide), trySlot_eq]
      cases hoffered : p.offered t entry g merge (bag, j) with
      | true =>
        have hnext : p.slotOffers t entry g bag merge skip (j :: rest) =
            (bag, j) :: p.slotOffers t entry g bag merge skip rest := by
          simp [slotOffers, hskip, hoffered]
        rw [hnext, Plan.fill_cons, if_pos rfl]
        split
        · rfl
        · exact ih (Nat.pos_of_ne_zero ‹_›)
      | false =>
        have hsame : p.slotOffers t entry g bag merge skip (j :: rest) =
            p.slotOffers t entry g bag merge skip rest := by
          simp [slotOffers, hskip, hoffered]
        simp only [Bool.false_eq_true, if_false, hsame]
        rw [if_neg (Nat.ne_of_gt hcount)]
        exact ih hcount

section Blocks
variable (hg : p.IsNotEmptyBag t g = false)
include hg

variable (entry) in
theorem searches_InInventorySlots (slot_begin slot_end : ℕ) (merge : Bool) (skip_bag skip_slot : ℕ) :
    Searches (p.freeSpace t entry g)
      (p.CanStoreItem_InInventorySlots (t := t) slot_begin slot_end entry merge g skip_bag skip_slot)
      (some (p.inventoryOffers t entry g slot_begin slot_end merge skip_bag skip_slot)) := by
  intro plan hcount
  unfold CanStoreItem_InInventorySlots inventoryOffers
  rw [hg, if_neg Bool.false_ne_true, trySlots_eq _ _ _ _ hcount]

variable (entry) in
theorem searches_InBag (merge non_specialized : Bool) (skip_bag skip_slot bag : ℕ) :
    Searches (p.freeSpace t entry g)
      (p.CanStoreItem_InBag (t := t) entry merge non_specialized g skip_bag skip_slot bag)
      (p.bagOffers t entry g merge non_specialized skip_bag skip_slot bag) := by
  have hrefused : (∀ plan, p.CanStoreItem_InBag (t := t) entry merge non_specialized g skip_bag skip_slot bag plan =
      (.itemDoesntGoIntoBag, plan)) → Searches (p.freeSpace t entry g)
        (p.CanStoreItem_InBag (t := t) entry merge non_specialized g skip_bag skip_slot bag) none := by
    intro h plan
    rw [h plan]
    exact ⟨by simp, rfl⟩
  unfold bagOffers
  cases hbag : p.GetBagByPos t bag with
  | none =>
    apply hrefused
    intro plan
    unfold CanStoreItem_InBag
    rw [hbag, ite_self]
  | some pBag =>
    simp only
    split
    · rename_i hall
      obtain ⟨hbagSkip, hself, hkind, hgoes⟩ := hall
      intro plan hcount
      unfold CanStoreItem_InBag
      rw [if_neg hbagSkip, hbag]
      simp only
      rw [if_neg hself, hg, if_neg Bool.false_ne_true, if_neg (not_not.mpr hkind), hgoes, if_neg (by decide),
        trySlots_eq _ _ _ _ hcount]
    · rename_i hnot
      apply hrefused
      intro plan
      unfold CanStoreItem_InBag
      rw [hbag]
      simp only
      split
      · rfl
      · split
        · rfl
        · rw [hg, if_neg Bool.false_ne_true]
          split
          · rfl
          · split
            · rfl
            · rename_i h1 h2 h3 h4
              exact absurd ⟨h1, h2, not_not.mp h3, by simpa using h4⟩ hnot

variable (entry) in
theorem searches_searchBag (merge : Bool) (slot bag : ℕ) :
    Searches (p.freeSpace t entry g) (p.searchBag (t := t) entry merge g slot bag)
      (p.searchBagOffers t entry g merge slot bag) := by
  have hspecial := searches_InBag entry hg merge false NULL_BAG slot bag
  have hplain := searches_InBag entry hg merge true NULL_BAG slot bag
  unfold searchBagOffers
  cases hoffers : p.bagOffers t entry g merge false NULL_BAG slot bag with
  | none =>
    rw [hoffers] at hspecial
    have heq : p.searchBag (t := t) entry merge g slot bag =
        p.CanStoreItem_InBag (t := t) entry merge true g NULL_BAG slot bag := by
      funext plan
      obtain ⟨hfailed, hsame⟩ := hspecial plan
      unfold searchBag
      rw [if_pos hfailed, hsame]
    rw [heq]
    exact hplain
  | some xs =>
    rw [hoffers] at hspecial
    intro plan hcount
    unfold searchBag
    rw [hspecial plan hcount, if_neg (not_not.mpr rfl)]

variable (entry) in
theorem searches_InSpecificSlot (bag slot : ℕ) :
    Searches (p.freeSpace t entry g) (p.CanStoreItem_InSpecificSlot (t := t) bag slot entry false g)
      (p.specificOffer t entry g bag slot) := by
  unfold specificOffer
  cases hother : p.otherItem (t := t) g bag slot with
  | none =>
    have hspace : p.freeSpace t entry g (bag, slot) = (t entry).GetMaxStackSize := by
      unfold freeSpace
      rw [hother]
      rfl
    cases hrefused : p.emptySlotRefused (t := t) bag slot entry with
    | true =>
      intro plan
      unfold CanStoreItem_InSpecificSlot
      simp [hg, hother, hrefused]
    | false =>
      intro plan hcount
      unfold CanStoreItem_InSpecificSlot
      rw [Plan.fill_singleton]
      simp [hg, hother, hrefused, hspace]
  | some g2 =>
    have hspace : p.freeSpace t entry g (bag, slot) = (t entry).GetMaxStackSize - (p.items g2).count := by
      unfold freeSpace
      rw [hother]
      rfl
    simp only
    split
    · rename_i hmerge
      intro plan hcount
      unfold CanStoreItem_InSpecificSlot
      rw [Plan.fill_singleton]
      simp [hg, hother, hmerge, hspace]
    · rename_i hmerge
      intro plan
      unfold CanStoreItem_InSpecificSlot
      simp [hg, hother, hmerge]

variable {noSimilar : ℕ} {next : Plan → Found} {rest : List (ℕ × ℕ)} (bag slot : ℕ)

theorem realizes_familySlots (hnext : Realizes (p.freeSpace t entry g) noSimilar next rest) (withTokens : Bool) :
    Realizes (p.freeSpace t entry g) noSimilar (p.familySlots t entry noSimilar g bag slot withTokens next)
      (p.familyOffers t entry g bag slot withTokens rest) := by
  have htokens := realizes_required
    (searches_InInventorySlots entry hg CURRENCYTOKEN_SLOT_START CURRENCYTOKEN_SLOT_END false bag slot) hnext
  intro plan
  unfold familySlots familyOffers
  split
  · exact realizes_required (searches_InInventorySlots entry hg KEYRING_SLOT_START KEYRING_SLOT_END false bag slot)
      (realizes_guardedBy (c := withTokens) htokens hnext) plan
  · split
    · exact htokens plan
    · exact hnext plan

theorem realizes_mergeSlots (hnext : Realizes (p.freeSpace t entry g) noSimilar next rest) :
    Realizes (p.freeSpace t entry g) noSimilar (p.mergeSlots t entry noSimilar g bag slot next)
      (p.mergeOffers t entry g bag slot rest) :=
  realizes_required (searches_InInventorySlots entry hg KEYRING_SLOT_START CURRENCYTOKEN_SLOT_END true bag slot)
    (realizes_required (searches_InInventorySlots entry hg INVENTORY_SLOT_ITEM_START INVENTORY_SLOT_ITEM_END true bag slot)
      hnext)

theorem realizes_storeInGivenBag (hnext : Realizes (p.freeSpace t entry g) noSimilar next rest) :
    Realizes (p.freeSpace t entry g) noSimilar (p.storeInGivenBag (t := t) entry noSimilar g bag slot next)
      (p.givenBagOffers t entry g bag slot rest) := by
  unfold storeInGivenBag givenBagOffers
  by_cases hown : bag = INVENTORY_SLOT_BAG_0
  · simp only [if_pos hown]
    have hfree := realizes_familySlots hg bag slot
      (realizes_required
        (searches_InInventorySlots entry hg INVENTORY_SLOT_ITEM_START INVENTORY_SLOT_ITEM_END false bag slot) hnext) true
    exact realizes_guardedBy (realizes_mergeSlots hg bag slot hfree) hfree
  · simp only [if_neg hown]
    have hfree := realizes_required (searches_searchBag entry hg false slot bag) hnext
    exact realizes_guardedBy (realizes_required (searches_searchBag entry hg true slot bag) hfree) hfree

theorem realizes_bags (merge non_specialized : Bool)
    (hnext : Realizes (p.freeSpace t entry g) noSimilar next rest) :
    Realizes (p.freeSpace t entry g) noSimilar
      (tryBags noSimilar (p.CanStoreItem_InBag (t := t) entry merge non_specialized g bag slot) next inventoryBags)
      (p.bagsOffers t entry g merge non_specialized bag slot ++ rest) :=
  realizes_tryBags (fun i _ => searches_InBag entry hg merge non_specialized bag slot i) hnext

variable (entry noSimilar) in
theorem realizes_storeAnywhere :
    Realizes (p.freeSpace t entry g) noSimilar (p.storeAnywhere (t := t) entry noSimilar g bag slot)
      (p.anywhereOffers t entry g bag slot) := by
  have hfull : Realizes (p.freeSpace t entry g) noSimilar (fun plan => (.inventoryFull, plan)) [] :=
    realizes_error (by decide)
  have hlast : Realizes (p.freeSpace t entry g) noSimilar
      (fun plan =>
        if p.IsNotEmptyBag t g then (.nonemptyBagOverOtherBag, plan)
        else
          required noSimilar (p.CanStoreItem_InInventorySlots (t := t) INVENTORY_SLOT_ITEM_START
            INVENTORY_SLOT_ITEM_END entry false g bag slot plan)
            (tryBags noSimilar (p.CanStoreItem_InBag (t := t) entry false true g bag slot)
              (fun plan => (.inventoryFull, plan)) inventoryBags))
      (p.inventoryOffers t entry g INVENTORY_SLOT_ITEM_START INVENTORY_SLOT_ITEM_END false bag slot ++
        (p.bagsOffers t entry g false true bag slot ++ [])) := by
    simp only [hg, Bool.false_eq_true, if_false]
    exact realizes_required
      (searches_InInventorySlots entry hg INVENTORY_SLOT_ITEM_START INVENTORY_SLOT_ITEM_END false bag slot)
      (realizes_bags hg bag slot false true hfull)
  have hfree := realizes_guardedBy (c := decide ((t entry).bagFamily ≠ 0))
    (b := fun next => p.familySlots t entry noSimilar g bag slot false
      (tryBags noSimilar (p.CanStoreItem_InBag (t := t) entry false false g bag slot) next inventoryBags))
    (realizes_familySlots hg bag slot (realizes_bags hg bag slot false false hlast) false) hlast
  have hmerged := realizes_bags hg bag slot true true hfree
  have hspecial := realizes_guardedBy (c := decide ((t entry).bagFamily ≠ 0))
    (b := fun next => tryBags noSimilar (p.CanStoreItem_InBag (t := t) entry true false g bag slot) next inventoryBags)
    (realizes_bags hg bag slot true false hmerged) hmerged
  exact realizes_guardedBy (realizes_mergeSlots hg bag slot hspecial) hfree

variable (entry noSimilar) in
theorem realizes_storeBlocks : Realizes (p.freeSpace t entry g) noSimilar (p.storeBlocks (t := t) entry noSimilar g bag slot false)
    (p.storeOffers t entry g bag slot) := by
  have hanywhere := realizes_storeAnywhere entry hg noSimilar bag slot
  have hgiven := realizes_guardedBy (c := decide (bag ≠ NULL_BAG))
    (realizes_storeInGivenBag hg bag slot hanywhere) hanywhere
  exact realizes_guardedBy (realizes_required (searches_InSpecificSlot entry hg bag slot) hgiven) hgiven

end Blocks

end Player

end HysteriaCore.Inventory

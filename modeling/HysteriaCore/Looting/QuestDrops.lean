import HysteriaCore.Looting.Fill
import HysteriaCore.Lib.Circles
import HysteriaCore.Lib.Runs
import Mathlib.Algebra.Order.Group.Abs
import Mathlib.Algebra.Order.Ring.Rat
import Mathlib.Data.UInt

/-!
# Quest drops in loot templates (LootStore, LootTemplate)

The generation of a loot takes the references of a template from `LootTemplates_Reference`; the search for
quest drops takes them from the map that it was given, which is that of the store itself. Chances and rates
are rational numbers here, and `dice` says what the calls of `rand_chance` and `urand` answer, in order.

The loader takes every row that is valid by itself. A reference to a whole template is followed by
`Process` as often as `maxcount` says, and by the search for quest drops until something is found; a
reference to a group of a template ends there.
-/

namespace HysteriaCore.Looting
open Lib

structure StoreItem extends LootStoreItem where
  chance : ℚ
  lootmode : ℕ
  group : ℕ
  mincountOrRef : ℤ
  maxcount : ℕ

structure LootGroup where
  ExplicitlyChanced : List StoreItem
  EqualChanced : List StoreItem

structure LootTemplate where
  Entries : List StoreItem
  Groups : List (Option LootGroup)

abbrev LootTemplateMap := ℕ → Option LootTemplate

def StoreItem.ref (item : StoreItem) : ℕ := (-item.mincountOrRef).toNat

def LootGroup.AddEntry (g : LootGroup) (item : StoreItem) : LootGroup :=
  if item.chance ≠ 0 then { g with ExplicitlyChanced := g.ExplicitlyChanced ++ [item] }
  else { g with EqualChanced := g.EqualChanced ++ [item] }

def LootTemplate.AddEntry (tpl : LootTemplate) (item : StoreItem) : LootTemplate :=
  if 0 < item.group ∧ 0 < item.mincountOrRef then
    { tpl with
      Groups := (tpl.Groups ++ List.replicate (item.group - tpl.Groups.length) none).modify (item.group - 1)
        fun g => some ((g.getD ⟨[], []⟩).AddEntry item) }
  else { tpl with Entries := tpl.Entries ++ [item] }

def LootTemplate.ofRows (rows : List StoreItem) : LootTemplate := rows.foldl LootTemplate.AddEntry ⟨[], []⟩

def LootTemplate.group? (tpl : LootTemplate) (groupId : ℕ) : Option LootGroup := tpl.Groups[groupId - 1]?.join

/-! ### The search -/

/-- What is searched for: entries with `needs_quest`, or items for which a player has a quest. -/
inductive Wanted where
  | quest
  | player (HasQuestForItem : ℕ → Bool)

def Wanted.holds : Wanted → ℕ → Bool → Bool
  | quest, _, needsQuest => needsQuest
  | player HasQuestForItem, itemid, _ => HasQuestForItem itemid

def Wanted.drop (w : Wanted) (item : StoreItem) : Bool := w.holds item.itemid item.needsQuest

def LootGroup.hasDrop (w : Wanted) (g : LootGroup) : Bool := g.ExplicitlyChanced.any w.drop || g.EqualChanced.any w.drop

/-- A loop that returns at the first entry that passes; `none` is a test without end. -/
def firstOf (test : StoreItem → Option Bool) : List StoreItem → Option Bool
  | [] => some false
  | item :: rest => (test item).bind fun found => if found then some true else firstOf test rest

def StoreItem.hasDrop (store : LootTemplateMap) (w : Wanted) (hasDrop : LootTemplate → ℕ → Option Bool)
    (item : StoreItem) : Option Bool :=
  if item.mincountOrRef < 0 then
    match store item.ref with
    | none => some false
    | some Referenced => hasDrop Referenced item.group
  else some (w.drop item)

def LootTemplate.hasDrop (store : LootTemplateMap) (w : Wanted) : ℕ → LootTemplate → ℕ → Option Bool
  | 0, _, _ => none
  | fuel + 1, tpl, groupId =>
    if groupId ≠ 0 then some ((tpl.group? groupId).any (LootGroup.hasDrop w))
    else
      (firstOf (StoreItem.hasDrop store w (LootTemplate.hasDrop store w fuel)) tpl.Entries).map fun found =>
        found || tpl.Groups.any fun g => g.any (LootGroup.hasDrop w)

def haveLoot (store : LootTemplateMap) (w : Wanted) (fuel loot_id : ℕ) : Option Bool :=
  match store loot_id with
  | none => some false
  | some tpl => tpl.hasDrop store w fuel 0

def HaveQuestLootFor (store : LootTemplateMap) : ℕ → ℕ → Option Bool := haveLoot store .quest

def HaveQuestLootForPlayer (store : LootTemplateMap) (HasQuestForItem : ℕ → Bool) : ℕ → ℕ → Option Bool :=
  haveLoot store (.player HasQuestForItem)

/-! ### The generation -/

structure Server where
  proto : ℕ → Option ItemTemplate
  InventoryType : ℕ → ℕ
  referenced : ℚ
  referencedAmount : ℚ
  quality : ℕ → ℚ

structure Dice where
  rand_chance : ℕ → ℚ
  urand : ℕ → ℕ

structure Rolling where
  loot : Loot
  draws : ℕ

section Generation
variable (sv : Server) (rate : Bool) (lootMode : ℕ) (dice : Dice)

def StoreItem.Roll (item : StoreItem) (s : Rolling) : Bool × Rolling :=
  if 100 ≤ item.chance then (true, s)
  else
    let modifier :=
      if !rate then 1
      else if item.mincountOrRef < 0 then sv.referenced
      else (sv.proto item.itemid).elim 1 fun pProto => sv.quality pProto.quality
    (decide (dice.rand_chance s.draws < item.chance * modifier), { s with draws := s.draws + 1 })

def Rolling.AddItem (s : Rolling) (item : StoreItem) : Rolling where
  loot := s.loot.addItem sv.proto item.toLootStoreItem
    (item.mincountOrRef.toNat + dice.urand s.draws % (item.maxcount + 1 - item.mincountOrRef.toNat))
  draws := s.draws + 1

def invalid (loot : Loot) (item : StoreItem) : Bool :=
  decide (item.lootmode &&& lootMode = 0) || (sv.proto item.itemid).isNone ||
    (let foundDuplicates := loot.items.countP fun i => decide (i.itemid = item.itemid)
     if sv.InventoryType item.itemid = 0 then decide (3 ≤ foundDuplicates ∧ item.itemid ≠ 47242)
     else decide (1 ≤ foundDuplicates))

def chosen : ℚ → List StoreItem → Option StoreItem
  | _, [] => none
  | roll, item :: rest =>
    if 100 ≤ item.chance then some item
    else if roll - item.chance < 0 then some item
    else chosen (roll - item.chance) rest

/-- `LootGroup::Process`: the roll of the explicitly chanced entries, then one of the others. -/
def LootGroup.Process (g : LootGroup) (s : Rolling) : Rolling :=
  let explicitly := g.ExplicitlyChanced.filter fun item => !invalid sv lootMode s.loot item
  let equal := g.EqualChanced.filter fun item => !invalid sv lootMode s.loot item
  let rolled : Rolling := if explicitly.isEmpty then s else { s with draws := s.draws + 1 }
  match if explicitly.isEmpty then none else chosen (dice.rand_chance s.draws) explicitly with
  | some item => rolled.AddItem sv dice item
  | none =>
    match equal[dice.urand rolled.draws % equal.length]? with
    | some item => { rolled with draws := rolled.draws + 1 }.AddItem sv dice item
    | none => rolled

def StoreItem.process (references : LootTemplateMap) (Process : LootTemplate → ℕ → Rolling → Option Rolling)
    (s : Rolling) (item : StoreItem) : Option Rolling :=
  if item.lootmode &&& lootMode = 0 then some s
  else
    let rolled := item.Roll sv rate dice s
    if !rolled.1 then some rolled.2
    else if item.mincountOrRef < 0 then
      match references item.ref with
      | none => some rolled.2
      | some Referenced =>
        (List.range (item.maxcount * sv.referencedAmount).floor.toNat).foldlM
          (fun s _ => Process Referenced item.group s) rolled.2
    else some (rolled.2.AddItem sv dice item)

def LootTemplate.Process (references : LootTemplateMap) : ℕ → LootTemplate → ℕ → Rolling → Option Rolling
  | 0, _, _, _ => none
  | fuel + 1, tpl, groupId, s =>
    if groupId ≠ 0 then some ((tpl.group? groupId).elim s fun g => g.Process sv lootMode dice s)
    else
      (tpl.Entries.foldlM (StoreItem.process sv rate lootMode dice references (LootTemplate.Process references fuel))
        s).map fun s => tpl.Groups.foldl (fun s g => g.elim s fun g => g.Process sv lootMode dice s) s

end Generation

/-! ### What a template offers -/

def LootGroup.items (g : LootGroup) : List StoreItem := g.ExplicitlyChanced ++ g.EqualChanced

/-- The entries of a template or of one of its groups, and of what it refers to. -/
inductive Offers (resolve : LootTemplateMap) (item : StoreItem) : LootTemplate → ℕ → Prop
  | single {tpl groupId g} (hgroup : groupId ≠ 0) (hg : tpl.group? groupId = some g) (hitem : item ∈ g.items) :
    Offers resolve item tpl groupId
  | entry {tpl} (hitem : item ∈ tpl.Entries) (hplain : ¬ item.mincountOrRef < 0) : Offers resolve item tpl 0
  | grouped {tpl g} (hg : some g ∈ tpl.Groups) (hitem : item ∈ g.items) : Offers resolve item tpl 0
  | reference {tpl ref Referenced} (href : ref ∈ tpl.Entries) (hneg : ref.mincountOrRef < 0)
    (hresolve : resolve ref.ref = some Referenced) (hitem : Offers resolve item Referenced ref.group) :
    Offers resolve item tpl 0

def OffersDrop (resolve : LootTemplateMap) (w : Wanted) (tpl : LootTemplate) (groupId : ℕ) : Prop :=
  ∃ item, Offers resolve item tpl groupId ∧ w.drop item = true

variable {store references : LootTemplateMap} {w : Wanted} {tpl : LootTemplate} {groupId fuel : ℕ}

theorem LootGroup.hasDrop_iff {g : LootGroup} : g.hasDrop w = true ↔ ∃ item ∈ g.items, w.drop item = true := by
  unfold hasDrop items
  rw [← List.any_append, List.any_eq_true]

variable {b : Bool} {items : List StoreItem}

variable {test : StoreItem → Option Bool}

theorem firstOf_spec
    (h : firstOf test items = some b) :
    if b then ∃ item ∈ items, test item = some true else ∀ item ∈ items, test item = some false := by
  induction items with
  | nil =>
    obtain rfl := Option.some.inj h
    exact fun _ hitem => absurd hitem List.not_mem_nil
  | cons item rest ih =>
    obtain ⟨found, htest, hrest⟩ := Option.bind_eq_some_iff.mp h
    cases found with
    | true =>
      obtain rfl := Option.some.inj hrest
      exact ⟨item, List.mem_cons_self, htest⟩
    | false =>
      have hspec := ih hrest
      cases b with
      | true =>
        obtain ⟨i, hi, hfound⟩ := hspec
        exact ⟨i, List.mem_cons_of_mem item hi, hfound⟩
      | false =>
        intro i hi
        obtain rfl | hi := List.mem_cons.mp hi
        · exact htest
        · exact hspec i hi

theorem hasDrop_spec (h : tpl.hasDrop store w fuel groupId = some b) : b = true ↔ OffersDrop store w tpl groupId := by
  induction fuel generalizing tpl groupId b with
  | zero => exact absurd h (by simp [LootTemplate.hasDrop])
  | succ fuel ih =>
    unfold LootTemplate.hasDrop at h
    by_cases hgroup : groupId ≠ 0
    · rw [if_pos hgroup, Option.some.injEq] at h
      rw [← h]
      constructor
      · intro hany
        obtain ⟨g, hg, hdrop⟩ := (Option.any_eq_true _ _).mp hany
        obtain ⟨item, hitem, hwanted⟩ := LootGroup.hasDrop_iff.mp hdrop
        exact ⟨item, .single hgroup hg hitem, hwanted⟩
      · intro hoffers
        obtain ⟨item, hoffer, hwanted⟩ := hoffers
        cases hoffer with
        | single _ hg hitem =>
          rw [hg]
          exact LootGroup.hasDrop_iff.mpr ⟨item, hitem, hwanted⟩
        | entry => exact absurd rfl hgroup
        | grouped => exact absurd rfl hgroup
        | reference => exact absurd rfl hgroup
    · rw [if_neg hgroup] at h
      obtain rfl := not_not.mp hgroup
      obtain ⟨found, hfirst, rfl⟩ := Option.map_eq_some_iff.mp h
      have hspec := firstOf_spec hfirst
      rw [Bool.or_eq_true, List.any_eq_true]
      constructor
      · intro hor
        obtain rfl | ⟨g, hg, hany⟩ := hor
        · obtain ⟨item, hitem, htest⟩ := hspec
          unfold StoreItem.hasDrop at htest
          split at htest
          · rename_i hneg
            split at htest
            · exact absurd htest (by simp)
            · rename_i Referenced hresolve
              obtain ⟨i, hi, hwanted⟩ := (ih htest).mp rfl
              exact ⟨i, .reference hitem hneg hresolve hi, hwanted⟩
          · rename_i hplain
            exact ⟨item, .entry hitem hplain, Option.some.inj htest⟩
        · obtain ⟨grp, rfl, hdrop⟩ := (Option.any_eq_true _ _).mp hany
          obtain ⟨item, hitem, hwanted⟩ := LootGroup.hasDrop_iff.mp hdrop
          exact ⟨item, .grouped hg hitem, hwanted⟩
      · intro hoffers
        obtain ⟨item, hoffer, hwanted⟩ := hoffers
        cases found with
        | true => exact .inl rfl
        | false =>
          right
          cases hoffer with
          | single hne => exact absurd rfl hne
          | entry hitem hplain =>
            have htest := hspec item hitem
            unfold StoreItem.hasDrop at htest
            rw [if_neg hplain, hwanted] at htest
            exact absurd htest (by simp)
          | grouped hg hitem => exact ⟨_, hg, LootGroup.hasDrop_iff.mpr ⟨item, hitem, hwanted⟩⟩
          | @reference _ ref Referenced href hneg hresolve hi =>
            have htest := hspec ref href
            unfold StoreItem.hasDrop at htest
            rw [if_pos hneg, hresolve] at htest
            exact absurd ((ih htest).mpr ⟨item, hi, hwanted⟩) (by simp)

/-! ### Where the search ends -/

/-- An entry leads to what is wanted: it is wanted itself, or what it refers to offers it. -/
def StoreItem.LeadsTo (store : LootTemplateMap) (w : Wanted) (item : StoreItem) : Prop :=
  if item.mincountOrRef < 0 then ∃ Referenced, store item.ref = some Referenced ∧ OffersDrop store w Referenced item.group
  else w.drop item = true

/-- The search in the whole template `ref` goes on into the whole template `ref'`: no entry before the reference
leads to what is wanted. -/
def Searches (store : LootTemplateMap) (w : Wanted) (ref' ref : ℕ) : Prop :=
  (store ref').isSome ∧ ∃ tpl, store ref = some tpl ∧ ∃ before item after, tpl.Entries = before ++ item :: after ∧
    (∀ i ∈ before, ¬ i.LeadsTo store w) ∧ item.mincountOrRef < 0 ∧ item.group = 0 ∧ item.ref = ref'

variable {item : StoreItem}

theorem leadsTo_spec
    (h : item.hasDrop store w (LootTemplate.hasDrop store w fuel) = some b) : b = true ↔ item.LeadsTo store w := by
  unfold StoreItem.hasDrop at h
  unfold StoreItem.LeadsTo
  split at h
  · rw [if_pos ‹_›]
    cases href : store item.ref with
    | none =>
      rw [href] at h
      obtain rfl := Option.some.inj h
      simp
    | some Referenced =>
      rw [href] at h
      simp [hasDrop_spec h]
  · rw [if_neg ‹_›, Option.some.inj h]

theorem firstOf_reaches {before after : List StoreItem}
    (hbefore : ∀ i ∈ before, test i ≠ some true) (h : firstOf test (before ++ item :: after) = some b) :
    ∃ b', test item = some b' := by
  induction before with
  | nil =>
    obtain ⟨b', hitem, -⟩ := Option.bind_eq_some_iff.mp h
    exact ⟨b', hitem⟩
  | cons i before ih =>
    obtain ⟨found, hfound, hrest⟩ := Option.bind_eq_some_iff.mp h
    cases found with
    | true => exact absurd hfound (hbefore i List.mem_cons_self)
    | false => exact ih (fun i' hi' => hbefore i' (List.mem_cons_of_mem i hi')) hrest

theorem firstOf_mono {test test' : StoreItem → Option Bool}
    (htest : ∀ item b, test item = some b → test' item = some b) (h : firstOf test items = some b) :
    firstOf test' items = some b := by
  induction items with
  | nil => exact h
  | cons item rest ih =>
    obtain ⟨found, hfound, hrest⟩ := Option.bind_eq_some_iff.mp h
    rw [firstOf, htest item found hfound, Option.bind_some]
    cases found with
    | true => exact hrest
    | false => exact ih hrest

theorem StoreItem.hasDrop_mono {search search' : LootTemplate → ℕ → Option Bool}
    (hsearch : ∀ tpl groupId b, search tpl groupId = some b → search' tpl groupId = some b) (item : StoreItem) (b : Bool)
    (h : item.hasDrop store w search = some b) : item.hasDrop store w search' = some b := by
  unfold StoreItem.hasDrop at h ⊢
  split at h
  · rw [if_pos ‹_›]
    split at h
    · exact h
    · exact hsearch _ _ _ h
  · rw [if_neg ‹_›]
    exact h

theorem hasDrop_succ (h : tpl.hasDrop store w fuel groupId = some b) :
    tpl.hasDrop store w (fuel + 1) groupId = some b := by
  induction fuel generalizing tpl groupId b with
  | zero => exact absurd h (by simp [LootTemplate.hasDrop])
  | succ fuel ih =>
    unfold LootTemplate.hasDrop at h ⊢
    split at h
    · rw [if_pos ‹_›]
      exact h
    · rw [if_neg ‹_›]
      obtain ⟨found, hfirst, hfound⟩ := Option.map_eq_some_iff.mp h
      have hmono := firstOf_mono (StoreItem.hasDrop_mono fun _ _ _ h => ih h) hfirst
      rw [hmono, Option.map_some, hfound]

theorem hasDrop_mono {fuel' : ℕ} (hle : fuel ≤ fuel') (h : tpl.hasDrop store w fuel groupId = some b) :
    tpl.hasDrop store w fuel' groupId = some b := by
  induction hle with
  | refl => exact h
  | step _ ih => exact hasDrop_succ ih

theorem entry_ends (hends : item.mincountOrRef < 0 → item.group = 0 → ∀ Referenced,
    store item.ref = some Referenced → ∃ fuel b, Referenced.hasDrop store w fuel 0 = some b) :
    ∃ fuel b, item.hasDrop store w (LootTemplate.hasDrop store w fuel) = some b := by
  unfold StoreItem.hasDrop
  split
  · rename_i hneg
    cases href : store item.ref with
    | none => exact ⟨0, false, rfl⟩
    | some Referenced =>
      by_cases hwhole : item.group = 0
      · rw [hwhole]
        exact hends hneg hwhole Referenced href
      · exact ⟨1, _, if_pos hwhole⟩
  · exact ⟨0, _, rfl⟩

theorem entries_end (hends : ∀ before item after, items = before ++ item :: after →
    (∀ i ∈ before, ¬ i.LeadsTo store w) → item.mincountOrRef < 0 → item.group = 0 → ∀ Referenced,
      store item.ref = some Referenced → ∃ fuel b, Referenced.hasDrop store w fuel 0 = some b) :
    ∃ fuel b, firstOf (StoreItem.hasDrop store w (LootTemplate.hasDrop store w fuel)) items = some b := by
  induction items with
  | nil => exact ⟨0, false, rfl⟩
  | cons item rest ih =>
    obtain ⟨n, found, hfound⟩ := entry_ends (hends [] item rest rfl fun _ hi => absurd hi List.not_mem_nil)
    cases found with
    | true => exact ⟨n, true, by rw [firstOf, hfound]; rfl⟩
    | false =>
      have hnot : ¬ item.LeadsTo store w := fun hlead => absurd ((leadsTo_spec hfound).mpr hlead) (by decide)
      obtain ⟨fuel, b, hrest⟩ := ih fun before i after heq hbefore =>
        hends (item :: before) i after (by rw [heq, List.cons_append]) (List.forall_mem_cons.mpr ⟨hnot, hbefore⟩)
      refine ⟨max n fuel, b, ?_⟩
      rw [firstOf, StoreItem.hasDrop_mono (fun _ _ _ => hasDrop_mono (Nat.le_max_left n fuel)) item false hfound]
      exact firstOf_mono (StoreItem.hasDrop_mono fun _ _ _ => hasDrop_mono (Nat.le_max_right n fuel)) hrest

variable {ref loot_id : ℕ}

theorem search_ends (hacc : Acc (Searches store w) ref) (htpl : store ref = some tpl) :
    ∃ fuel b, tpl.hasDrop store w fuel 0 = some b := by
  induction hacc generalizing tpl with
  | intro ref _ ih =>
    obtain ⟨fuel, b, hb⟩ := entries_end fun before item after heq hbefore hneg hwhole Referenced href =>
      ih item.ref ⟨by rw [href]; rfl, tpl, htpl, before, item, after, heq, hbefore, hneg, hwhole, rfl⟩ href
    refine ⟨fuel + 1, b || tpl.Groups.any fun g => g.any (LootGroup.hasDrop w), ?_⟩
    rw [LootTemplate.hasDrop, if_neg (by simp), hb, Option.map_some]

theorem acc_of_search (htpl : store ref = some tpl) (h : tpl.hasDrop store w fuel 0 = some b) :
    Acc (Searches store w) ref := by
  induction fuel generalizing ref tpl b with
  | zero => exact absurd h (by simp [LootTemplate.hasDrop])
  | succ fuel ih =>
    constructor
    intro ref' hsearches
    obtain ⟨hsome, tpl', htpl', before, item, after, heq, hbefore, hneg, hwhole, rfl⟩ := hsearches
    obtain rfl := Option.some.inj (htpl.symm.trans htpl')
    obtain ⟨Referenced, href⟩ := Option.isSome_iff_exists.mp hsome
    unfold LootTemplate.hasDrop at h
    rw [if_neg (by simp), heq] at h
    obtain ⟨found, hfirst, -⟩ := Option.map_eq_some_iff.mp h
    -- the search has come past the entries before the reference, so the reference itself ended
    obtain ⟨b', hitem⟩ := firstOf_reaches (fun i hi htrue => hbefore i hi ((leadsTo_spec htrue).mp rfl)) hfirst
    unfold StoreItem.hasDrop at hitem
    rw [if_pos hneg, href, hwhole] at hitem
    exact ih href hitem

theorem haveLoot_ends_iff : (∃ fuel b, haveLoot store w fuel loot_id = some b) ↔ Acc (Searches store w) loot_id := by
  unfold haveLoot
  cases hstore : store loot_id with
  | none =>
    refine ⟨fun _ => ⟨loot_id, fun ref' hsearches => ?_⟩, fun _ => ⟨0, false, rfl⟩⟩
    obtain ⟨-, tpl, htpl, -⟩ := hsearches
    rw [hstore] at htpl
    exact absurd htpl (by simp)
  | some tpl =>
    constructor
    · intro hends
      obtain ⟨fuel, b, hb⟩ := hends
      exact acc_of_search hstore hb
    · exact fun hacc => search_ends hacc hstore

/-! ### What the rolls can add -/

def Loot.entries (loot : Loot) : List LootItem := loot.items ++ loot.questItems

def NewFrom (P : StoreItem → Prop) (s s' : Rolling) : Prop :=
  ∀ li ∈ s'.loot.entries, li ∈ s.loot.entries ∨ ∃ item, P item ∧ li.itemid = item.itemid ∧ li.needsQuest = item.needsQuest

variable {P Q : StoreItem → Prop} {s s' s'' : Rolling}

theorem NewFrom.of_loot (h : s'.loot = s.loot) : NewFrom P s s' := by
  intro li hli
  rw [h] at hli
  exact .inl hli

theorem NewFrom.trans (h : NewFrom P s s') (h' : NewFrom P s' s'') : NewFrom P s s'' := by
  intro li hli
  obtain hold | hnew := h' li hli
  · exact h li hold
  · exact .inr hnew

theorem NewFrom.mono (h : NewFrom P s s') (hPQ : ∀ item, P item → Q item) : NewFrom Q s s' := by
  intro li hli
  obtain hold | ⟨item, hitem, hsame⟩ := h li hli
  · exact .inl hold
  · exact .inr ⟨item, hPQ item hitem, hsame⟩

variable {proto : ℕ → Option ItemTemplate}

theorem entries_addStacks (pt : ItemTemplate) (item : LootStoreItem) (n count : ℕ)
    {loot : Loot} {li : LootItem} (h : li ∈ (loot.addStacks proto pt item n count).entries) :
    li ∈ loot.entries ∨ li.itemid = item.itemid ∧ li.needsQuest = item.needsQuest := by
  induction n generalizing loot count with
  | zero => exact .inl h
  | succ n ih =>
    have hnew : ∀ k, (LootItem.ofStore proto item k).itemid = item.itemid ∧
        (LootItem.ofStore proto item k).needsQuest = item.needsQuest := fun _ => ⟨rfl, rfl⟩
    rw [Loot.addStacks] at h
    unfold Loot.entries at ih h ⊢
    split at h
    · split at h
      · obtain hold | hsame := ih _ h
        · simp only [List.mem_append, List.mem_singleton] at hold ⊢
          obtain hitems | hquest | rfl := hold
          · exact .inl (.inl hitems)
          · exact .inl (.inr hquest)
          · exact .inr (hnew _)
        · exact .inr hsame
      · exact .inl h
    · split at h
      · obtain hold | hsame := ih _ h
        · simp only [List.mem_append, List.mem_singleton] at hold ⊢
          obtain (hitems | rfl) | hquest := hold
          · exact .inl (.inl hitems)
          · exact .inr (hnew _)
          · exact .inl (.inr hquest)
        · exact .inr hsame
      · exact .inl h

variable {sv : Server} {rate : Bool} {lootMode : ℕ} {dice : Dice}

theorem newFrom_AddItem (hitem : P item) : NewFrom P s (s.AddItem sv dice item) := by
  intro li hli
  unfold Rolling.AddItem Loot.addItem at hli
  simp only at hli
  split at hli
  · exact .inl hli
  · obtain hold | hsame := entries_addStacks _ _ _ _ hli
    · exact .inl hold
    · exact .inr ⟨item, hitem, hsame⟩

theorem chosen_mem {roll : ℚ} (h : chosen roll items = some item) : item ∈ items := by
  induction items generalizing roll with
  | nil => exact absurd h (by simp [chosen])
  | cons i rest ih =>
    unfold chosen at h
    split at h
    · rw [Option.some.inj h]
      exact List.mem_cons_self
    · split at h
      · rw [Option.some.inj h]
        exact List.mem_cons_self
      · exact List.mem_cons_of_mem i (ih h)

theorem newFrom_group {g : LootGroup} (hg : ∀ item ∈ g.items, P item) :
    NewFrom P s (g.Process sv lootMode dice s) := by
  have hrolled : ∀ c : Bool, NewFrom P s (if c then s else { s with draws := s.draws + 1 }) := by
    intro c
    cases c <;> exact .of_loot rfl
  unfold LootGroup.Process
  simp only
  split
  · rename_i item hitem
    split at hitem
    · exact absurd hitem (by simp)
    · have hmem := List.mem_of_mem_filter (chosen_mem hitem)
      exact (hrolled _).trans (newFrom_AddItem (hg item (List.mem_append_left _ hmem)))
  · split
    · rename_i item hitem
      have hmem := List.mem_of_mem_filter (List.mem_of_getElem? hitem)
      apply (hrolled _).trans
      exact NewFrom.trans (.of_loot rfl) (newFrom_AddItem (hg item (List.mem_append_right _ hmem)))
    · exact hrolled _

variable {α : Type}

variable {f : Rolling → α → Option Rolling} {as : List α}

theorem newFrom_foldlM
    (hstep : ∀ s a s', a ∈ as → f s a = some s' → NewFrom P s s') (h : as.foldlM f s = some s') : NewFrom P s s' := by
  induction as generalizing s with
  | nil =>
    obtain rfl := Option.some.inj h
    exact .of_loot rfl
  | cons a as ih =>
    obtain ⟨u, hu, hrest⟩ := Option.bind_eq_some_iff.mp h
    have hfirst := hstep s a u List.mem_cons_self hu
    exact hfirst.trans (ih (fun s b s' hb => hstep s b s' (List.mem_cons_of_mem a hb)) hrest)

theorem newFrom_foldl {f : Rolling → α → Rolling}
    (hstep : ∀ s, ∀ a ∈ as, NewFrom P s (f s a)) : NewFrom P s (as.foldl f s) := by
  induction as generalizing s with
  | nil => exact .of_loot rfl
  | cons a as ih => exact (hstep s a List.mem_cons_self).trans (ih fun s b hb => hstep s b (List.mem_cons_of_mem a hb))

theorem Roll_loot : (item.Roll sv rate dice s).2.loot = s.loot := by
  unfold StoreItem.Roll
  split <;> rfl

theorem Process_newFrom (h : tpl.Process sv rate lootMode dice references fuel groupId s = some s') :
    NewFrom (fun item => Offers references item tpl groupId) s s' := by
  induction fuel generalizing tpl groupId s s' with
  | zero => exact absurd h (by simp [LootTemplate.Process])
  | succ fuel ih =>
    unfold LootTemplate.Process at h
    by_cases hgroup : groupId ≠ 0
    · rw [if_pos hgroup, Option.some.injEq] at h
      rw [← h]
      cases hg : tpl.group? groupId with
      | none => exact .of_loot rfl
      | some g => exact newFrom_group fun item hitem => .single hgroup hg hitem
    · rw [if_neg hgroup] at h
      obtain rfl := not_not.mp hgroup
      obtain ⟨u, hentries, rfl⟩ := Option.map_eq_some_iff.mp h
      have hgroups : NewFrom (fun item => Offers references item tpl 0) u
          (tpl.Groups.foldl (fun s g => g.elim s fun g => g.Process sv lootMode dice s) u) := by
        apply newFrom_foldl
        intro s g hg
        cases g with
        | none => exact .of_loot rfl
        | some g => exact newFrom_group fun item hitem => .grouped hg hitem
      apply NewFrom.trans _ hgroups
      apply newFrom_foldlM _ hentries
      intro s item s' hitem hprocess
      unfold StoreItem.process at hprocess
      have hroll : NewFrom (fun item => Offers references item tpl 0) s (item.Roll sv rate dice s).2 :=
        .of_loot Roll_loot
      split at hprocess
      · rw [← Option.some.inj hprocess]
        exact .of_loot rfl
      · simp only at hprocess
        split at hprocess
        · rw [← Option.some.inj hprocess]
          exact hroll
        · split at hprocess
          · rename_i hneg
            split at hprocess
            · rw [← Option.some.inj hprocess]
              exact hroll
            · rename_i Referenced hresolve
              apply hroll.trans
              apply newFrom_foldlM _ hprocess
              intro s _ s' _ hround
              exact (ih hround).mono fun i hi => .reference hitem hneg hresolve hi
          · rename_i hplain
            rw [← Option.some.inj hprocess]
            exact hroll.trans (newFrom_AddItem (.entry hitem hplain))

/-! ### Whether the two agree -/

section Agreement
variable (sv : Server) (store references : LootTemplateMap) (w : Wanted) (loot_id : ℕ)

def CanAdd : Prop :=
  ∃ tpl rate lootMode dice fuel loot s, store loot_id = some tpl ∧ (∀ n, 0 ≤ dice.rand_chance n ∧ dice.rand_chance n < 100) ∧
    tpl.Process sv rate lootMode dice references fuel 0 ⟨loot, 0⟩ = some s ∧
    ∃ li ∈ s.loot.entries, li ∉ loot.entries ∧ w.holds li.itemid li.needsQuest = true

/-- What is wanted is reachable from the template, where references lead into one of the maps. -/
def Reachable (resolve : LootTemplateMap) : Prop := ∃ tpl, store loot_id = some tpl ∧ OffersDrop resolve w tpl 0

structure Agrees : Prop where
  found : CanAdd sv store references w loot_id → ∃ fuel, haveLoot store w fuel loot_id = some true
  missing : ¬ Reachable store w loot_id references → ∃ fuel, haveLoot store w fuel loot_id = some false

/-- The references that the search follows in the store itself end, and they reach what is wanted where those into
`reference_loot_template` do. -/
def SameReach : Prop :=
  Acc (Searches store w) loot_id ∧ (Reachable store w loot_id store ↔ Reachable store w loot_id references)

end Agreement

theorem reachable_of_canAdd (h : CanAdd sv store references w loot_id) : Reachable store w loot_id references := by
  obtain ⟨tpl, rate, lootMode, dice, fuel, loot, s, hstore, -, hprocess, li, hli, hnew, hwanted⟩ := h
  obtain hold | ⟨item, hitem, hid, hquest⟩ := Process_newFrom hprocess li hli
  · exact absurd hold hnew
  · refine ⟨tpl, hstore, item, hitem, ?_⟩
    unfold Wanted.drop
    rw [← hid, ← hquest]
    exact hwanted

theorem haveLoot_spec (h : haveLoot store w fuel loot_id = some b) : b = true ↔ Reachable store w loot_id store := by
  unfold haveLoot at h
  cases hstore : store loot_id with
  | none =>
    rw [hstore] at h
    obtain rfl := Option.some.inj h
    constructor
    · exact fun hb => absurd hb (by decide)
    · intro hreach
      obtain ⟨tpl, htpl, -⟩ := hreach
      rw [hstore] at htpl
      exact absurd htpl (by simp)
  | some tpl =>
    rw [hstore] at h
    rw [hasDrop_spec h]
    constructor
    · exact fun hdrop => ⟨tpl, hstore, hdrop⟩
    · intro hreach
      obtain ⟨tpl', htpl, hdrop⟩ := hreach
      rw [hstore] at htpl
      rw [Option.some.inj htpl]
      exact hdrop

theorem SameReach.agrees (hsame : SameReach store references w loot_id) :
    Agrees sv store references w loot_id := by
  obtain ⟨fuel, b, hend⟩ := haveLoot_ends_iff.mpr hsame.1
  have hspec := haveLoot_spec hend
  rw [hsame.2] at hspec
  constructor
  · intro hadd
    rw [hspec.mpr (reachable_of_canAdd hadd)] at hend
    exact ⟨fuel, hend⟩
  · intro hnot
    rw [Bool.eq_false_iff.mpr fun hb => hnot (hspec.mp hb)] at hend
    exact ⟨fuel, hend⟩

/-- The search agrees with the generation where the store resolves the references to the same effect; where
everything that is reachable can be rolled, only there. -/
theorem agrees_iff_sameReach (sv : Server) (store references : LootTemplateMap) (w : Wanted) (loot_id : ℕ) :
    (SameReach store references w loot_id → Agrees sv store references w loot_id) ∧
      ((Reachable store w loot_id references → CanAdd sv store references w loot_id) →
        Agrees sv store references w loot_id → SameReach store references w loot_id) := by
  refine ⟨SameReach.agrees, fun hrolls hagrees => ?_⟩
  by_cases hreach : Reachable store w loot_id references
  · obtain ⟨fuel, hend⟩ := hagrees.found (hrolls hreach)
    exact ⟨haveLoot_ends_iff.mp ⟨fuel, true, hend⟩, fun _ => hreach, fun _ => (haveLoot_spec hend).mp rfl⟩
  · obtain ⟨fuel, hend⟩ := hagrees.missing hreach
    have hown : ¬ Reachable store w loot_id store := fun h => absurd ((haveLoot_spec hend).mpr h) (by decide)
    exact ⟨haveLoot_ends_iff.mp ⟨fuel, false, hend⟩, fun h => absurd h hown, fun h => absurd h hreach⟩

/-! ### The references of a store and of `reference_loot_template` -/

def RefersTo (resolve : LootTemplateMap) (ref' ref : ℕ) : Prop :=
  ∃ tpl, resolve ref = some tpl ∧ ∃ item ∈ tpl.Entries, item.mincountOrRef < 0 ∧ item.ref = ref'

def questReferences : LootTemplateMap := fun id =>
  if id = 35000 then some (.ofRows [⟨⟨77, true, []⟩, 100, 1, 0, 1, 1⟩]) else none

def questCreature : LootTemplateMap := fun id =>
  if id = 1 then some (.ofRows [⟨⟨77, false, []⟩, 100, 1, 0, -35000, 1⟩]) else none

theorem referenced_quest_missed : WellFounded (RefersTo questReferences) ∧
    ¬ Agrees ⟨ordinary, fun _ => 0, 1, 1, fun _ => 1⟩ questCreature questReferences .quest 1 := by
  constructor
  · constructor
    intro ref
    constructor
    intro ref' hrefers
    obtain ⟨tpl, htpl, item, hitem, hneg, -⟩ := hrefers
    unfold questReferences at htpl
    split at htpl
    · obtain rfl := Option.some.inj htpl
      obtain rfl := List.mem_singleton.mp hitem
      exact absurd hneg (by decide)
    · exact absurd htpl (by simp)
  · intro hagrees
    have hrun : ((LootTemplate.ofRows [⟨⟨77, false, []⟩, 100, 1, 0, -35000, 1⟩]).Process
        ⟨ordinary, fun _ => 0, 1, 1, fun _ => 1⟩ true 1 ⟨fun _ => 0, fun _ => 0⟩ questReferences 2 0
        ⟨Loot.new 0, 0⟩).any fun s => s.loot.entries.any fun li => Wanted.quest.holds li.itemid li.needsQuest := by
      decide +kernel
    obtain ⟨s, hs, hany⟩ := (Option.any_eq_true _ _).mp hrun
    obtain ⟨li, hli, hwanted⟩ := List.any_eq_true.mp hany
    obtain ⟨fuel, hfound⟩ := hagrees.found
      ⟨_, _, _, _, _, _, s, rfl, fun _ => ⟨Rat.le_refl, rfl⟩, hs, li, hli, List.not_mem_nil, hwanted⟩
    match fuel with
    | 0 => exact absurd hfound (by decide)
    | fuel + 1 =>
      have hmissed : haveLoot questCreature .quest (fuel + 1) 1 = some false := rfl
      rw [hmissed] at hfound
      exact absurd hfound (by decide)

/-! ### The loader (LootStore::LoadLootTable) -/

section Recursions
open Lib.Circles Relation

/-- A row that the query of `LoadLootTable` returns. -/
structure LootRow where
  entry : UInt32
  item : UInt32
  chanceOrQuestChance : ℚ
  lootmode : UInt16
  groupid : UInt8
  mincountOrRef : Int32
  maxcount : UInt8

/-- The constructor of `LootStoreItem`, which keeps 7 bits of the group. -/
def LootRow.storeItem (row : LootRow) : StoreItem where
  itemid := row.item.toNat
  needsQuest := decide (row.chanceOrQuestChance < 0)
  conditions := []
  chance := |row.chanceOrQuestChance|
  lootmode := if row.lootmode = 0 then 1 else row.lootmode.toNat
  group := row.groupid.toNat % 128
  mincountOrRef := row.mincountOrRef.toInt
  maxcount := row.maxcount.toNat

def StoreItem.IsValid (proto : ℕ → Option ItemTemplate) (item : StoreItem) : Bool :=
  if 128 ≤ item.group then false
  else if item.mincountOrRef = 0 then false
  else if 0 < item.mincountOrRef then
    if (proto item.itemid).isNone then false
    else if item.chance = 0 ∧ item.group = 0 then false
    else if item.chance ≠ 0 ∧ item.chance < 1 / 1000000 then false
    else !decide ((item.maxcount : ℤ) < item.mincountOrRef)
  -- a reference with a quest chance is reported and taken, one without a chance is not
  else item.needsQuest || decide (item.chance ≠ 0)

def loadRow (proto : ℕ → Option ItemTemplate) (templates : LootTemplateMap) (row : LootRow) : LootTemplateMap :=
  if row.storeItem.IsValid proto then
    Function.update templates row.entry.toNat
      (some (((templates row.entry.toNat).getD ⟨[], []⟩).AddEntry row.storeItem))
  else templates

def LoadLootTable (proto : ℕ → Option ItemTemplate) (rows : List LootRow) : LootTemplateMap :=
  rows.foldl (loadRow proto) fun _ => none

/-- A reference of the tables can be followed: it has a chance, and a loot mode. -/
def StoreItem.Follows (item : StoreItem) : Prop :=
  item.mincountOrRef < 0 → 0 < item.chance ∧ 0 < item.lootmode ∧ item.lootmode < 2 ^ 16

def Loaded (templates : LootTemplateMap) : Prop :=
  ∀ id tpl, templates id = some tpl → id < 2 ^ 32 ∧ ∀ item ∈ tpl.Entries, item.Follows

theorem mem_AddEntry {tpl : LootTemplate} {item i : StoreItem} (h : i ∈ (tpl.AddEntry item).Entries) :
    i ∈ tpl.Entries ∨ i = item := by
  unfold LootTemplate.AddEntry at h
  split at h
  · exact .inl h
  · obtain hold | hnew := List.mem_append.mp h
    · exact .inl hold
    · exact .inr (List.mem_singleton.mp hnew)

theorem storeItem_follows {row : LootRow} (hvalid : row.storeItem.IsValid proto = true) : row.storeItem.Follows := by
  intro hneg
  have hquest : row.chanceOrQuestChance < 0 ∨ |row.chanceOrQuestChance| ≠ 0 := by
    unfold StoreItem.IsValid at hvalid
    have hzero : ¬ row.storeItem.mincountOrRef = 0 := by omega
    have hpos : ¬ 0 < row.storeItem.mincountOrRef := by omega
    rw [if_neg hzero, if_neg hpos] at hvalid
    split at hvalid
    · exact absurd hvalid (by decide)
    · simpa [LootRow.storeItem] using hvalid
  have hchance : row.chanceOrQuestChance ≠ 0 := by
    obtain hlt | habs := hquest
    · exact ne_of_lt hlt
    · exact abs_ne_zero.mp habs
  refine ⟨abs_pos.mpr hchance, ?_⟩
  show 0 < (if row.lootmode = 0 then 1 else row.lootmode.toNat) ∧ (if row.lootmode = 0 then 1 else row.lootmode.toNat) < 2 ^ 16
  split
  · exact ⟨Nat.one_pos, by decide⟩
  · rename_i hmode
    have hne : row.lootmode.toNat ≠ 0 := fun h => hmode (UInt16.toNat_inj.mp h)
    exact ⟨Nat.pos_of_ne_zero hne, row.lootmode.toNat_lt⟩

theorem loaded_loadRow (templates : LootTemplateMap) (row : LootRow)
    (h : Loaded templates) : Loaded (loadRow proto templates row) := by
  unfold loadRow
  split
  · rename_i hvalid
    intro id tpl htpl
    by_cases hid : id = row.entry.toNat
    · subst hid
      rw [Function.update_self] at htpl
      obtain rfl := Option.some.inj htpl
      refine ⟨row.entry.toNat_lt, fun item hitem => ?_⟩
      obtain hold | rfl := mem_AddEntry hitem
      · cases hprev : templates row.entry.toNat with
        | none =>
          rw [hprev] at hold
          exact absurd hold List.not_mem_nil
        | some prev =>
          rw [hprev] at hold
          exact (h _ prev hprev).2 item hold
      · exact storeItem_follows hvalid
    · rw [Function.update_of_ne hid] at htpl
      exact h id tpl htpl
  · exact h

theorem loaded_LoadLootTable (proto : ℕ → Option ItemTemplate) (rows : List LootRow) :
    Loaded (LoadLootTable proto rows) :=
  foldl_invariant loaded_loadRow rows fun _ _ h => absurd h (by simp)

/-! ### References to whole templates -/

/-- Template `ref` refers to the whole template `ref'`, which is there, by an entry that is followed. -/
def Enters (followed : StoreItem → Prop) (templates : LootTemplateMap) (ref' ref : ℕ) : Prop :=
  (templates ref').isSome ∧ ∃ tpl, templates ref = some tpl ∧
    ∃ item ∈ tpl.Entries, item.mincountOrRef < 0 ∧ item.group = 0 ∧ item.ref = ref' ∧ followed item

def Circular (followed : StoreItem → Prop) (templates : LootTemplateMap) : Prop :=
  ∃ ref, TransGen (Enters followed templates) ref ref

def Server.rounds (sv : Server) (item : StoreItem) : ℕ := (item.maxcount * sv.referencedAmount).floor.toNat

def Server.repeats (sv : Server) (item : StoreItem) : Prop := 0 < sv.rounds item

def anyEntry (_ : StoreItem) : Prop := True

variable {followed : StoreItem → Prop} {templates references store : LootTemplateMap} {w : Wanted} {tpl : LootTemplate}
  {ref groupId fuel : ℕ}

theorem Loaded.wellFounded (h : Loaded templates) (hacyclic : ¬Circular followed templates) :
    WellFounded (Enters followed templates) := by
  have hbound : ∀ ref' ref, Enters followed templates ref' ref → ref' ≤ 2 ^ 32 := by
    intro ref' ref henters
    obtain ⟨tpl, htpl⟩ := Option.isSome_iff_exists.mp henters.1
    exact Nat.le_of_lt (h ref' tpl htpl).1
  exact wellFounded_of_acyclic hbound fun ref hcircle => hacyclic ⟨ref, hcircle⟩

theorem exists_entered (hcircle : TransGen (Enters followed templates) ref ref) :
    ∃ ref', TransGen (Enters followed templates) ref' ref' ∧ Enters followed templates ref' ref := by
  obtain ⟨ref', hlead, hlast⟩ := TransGen.tail'_iff.mp hcircle
  exact ⟨ref', TransGen.head' hlast hlead, hlast⟩

/-! ### The search -/

theorem Searches.enters {ref' : ℕ} (h : Searches store w ref' ref) : Enters anyEntry store ref' ref := by
  obtain ⟨hsome, tpl, htpl, before, item, after, heq, -, hneg, hwhole, hto⟩ := h
  exact ⟨hsome, tpl, htpl, item, by rw [heq]; exact List.mem_append_right before List.mem_cons_self, hneg, hwhole, hto,
    trivial⟩

/-- A player without a quest, for whom no entry ends the search early. -/
def nobody : Wanted := .player fun _ => false

theorem not_leadsTo_nobody (item : StoreItem) : ¬ item.LeadsTo store nobody := by
  simp [StoreItem.LeadsTo, OffersDrop, nobody, Wanted.drop, Wanted.holds]

theorem Enters.searches {ref' : ℕ} (h : Enters anyEntry store ref' ref) : Searches store nobody ref' ref := by
  obtain ⟨hsome, tpl, htpl, item, hitem, hneg, hwhole, hto, -⟩ := h
  obtain ⟨before, after, heq⟩ := List.append_of_mem hitem
  exact ⟨hsome, tpl, htpl, before, item, after, heq, fun i _ => not_leadsTo_nobody i, hneg, hwhole, hto⟩

theorem search_circle (hcircle : TransGen (Enters anyEntry store) ref ref) : ¬ Acc (Searches store nobody) ref := by
  intro hacc
  have hsearch : TransGen (Searches store nobody) ref ref := hcircle.lift id fun _ _ => Enters.searches
  clear hcircle
  induction hacc.transGen with
  | intro ref _ ih => exact ih ref hsearch hacc hsearch

/-! ### The rolls -/

section Rolls
variable {sv : Server} {rate : Bool} {lootMode : ℕ} {dice : Dice}

theorem foldlM_isSome (h : ∀ a ∈ as, ∀ s, (f s a).isSome) (s : Rolling) : (as.foldlM f s).isSome := by
  induction as generalizing s with
  | nil => rfl
  | cons a as ih =>
    obtain ⟨t, ht⟩ := Option.isSome_iff_exists.mp (h a List.mem_cons_self s)
    rw [List.foldlM_cons, ht]
    exact ih (fun b hb => h b (List.mem_cons_of_mem a hb)) t

theorem foldlM_none {a : α} (ha : a ∈ as) (h : ∀ s, f s a = none) (s : Rolling) : as.foldlM f s = none := by
  induction as generalizing s with
  | nil => exact absurd ha List.not_mem_nil
  | cons b as ih =>
    rw [List.foldlM_cons]
    obtain rfl | ha := List.mem_cons.mp ha
    · rw [h s]
      rfl
    · cases hb : f s b with
      | none => rfl
      | some t => exact ih ha t

theorem process_isSome {Process : LootTemplate → ℕ → Rolling → Option Rolling}
    (h : item.mincountOrRef < 0 → ∀ Referenced, references item.ref = some Referenced → sv.repeats item →
      ∀ s, (Process Referenced item.group s).isSome) (s : Rolling) :
    (item.process sv rate lootMode dice references Process s).isSome := by
  unfold StoreItem.process
  split
  · rfl
  · simp only
    split
    · rfl
    · split
      · rename_i hneg
        split
        · rfl
        · rename_i Referenced href
          apply foldlM_isSome
          intro round hround s
          have hrepeats : sv.repeats item := Nat.lt_of_le_of_lt (Nat.zero_le round) (List.mem_range.mp hround)
          exact h hneg Referenced href hrepeats s
      · rfl

theorem process_group (hgroup : groupId ≠ 0) (hfuel : 1 ≤ fuel) (s : Rolling) :
    (tpl.Process sv rate lootMode dice references fuel groupId s).isSome := by
  obtain ⟨m, rfl⟩ := Nat.exists_eq_add_of_le' hfuel
  rw [LootTemplate.Process, if_pos hgroup]
  rfl

/-- From some fuel on every call of the entries ends, whatever was rolled before. -/
theorem process_whole (h : ∀ item ∈ tpl.Entries, item.mincountOrRef < 0 → item.group = 0 →
      ∀ Referenced, references item.ref = some Referenced → sv.repeats item →
        ∃ n, ∀ fuel ≥ n, ∀ s, (Referenced.Process sv rate lootMode dice references fuel 0 s).isSome) :
    ∃ n, ∀ fuel ≥ n, ∀ s, (tpl.Process sv rate lootMode dice references fuel 0 s).isSome := by
  have hentries : ∀ item ∈ tpl.Entries, ∃ n, ∀ fuel ≥ n, ∀ s, (item.process sv rate lootMode dice references
      (LootTemplate.Process sv rate lootMode dice references fuel) s).isSome := by
    intro item hitem
    by_cases hfollowed : item.mincountOrRef < 0 ∧ item.group = 0 ∧ (references item.ref).isSome ∧ sv.repeats item
    · obtain ⟨hneg, hwhole, hsome, hrepeats⟩ := hfollowed
      obtain ⟨Referenced, href⟩ := Option.isSome_iff_exists.mp hsome
      obtain ⟨n, hn⟩ := h item hitem hneg hwhole Referenced href hrepeats
      refine ⟨n, fun fuel hfuel => process_isSome fun _ Referenced' href' _ => ?_⟩
      obtain rfl := Option.some.inj (href.symm.trans href')
      rw [hwhole]
      exact hn fuel hfuel
    · refine ⟨1, fun fuel hfuel => process_isSome fun hneg Referenced href hrepeats s => process_group ?_ hfuel s⟩
      intro hwhole
      exact hfollowed ⟨hneg, hwhole, by rw [href]; rfl, hrepeats⟩
  obtain ⟨n, hn⟩ := exists_forall_ge hentries
  refine ⟨n + 1, fun fuel hfuel s => ?_⟩
  obtain ⟨m, rfl⟩ := Nat.exists_eq_add_of_le' (le_trans (Nat.le_add_left 1 n) hfuel)
  rw [LootTemplate.Process, if_neg (by simp), Option.isSome_map]
  exact foldlM_isSome (hn m (by omega)) s

theorem process_bounded (hacyclic : WellFounded (Enters sv.repeats references)) (htpl : references ref = some tpl) :
    ∃ n, ∀ fuel ≥ n, ∀ s, (tpl.Process sv rate lootMode dice references fuel 0 s).isSome := by
  induction ref using hacyclic.induction generalizing tpl with
  | _ ref ih =>
    apply process_whole
    intro item hitem hneg hwhole Referenced href hrepeats
    have henters : Enters sv.repeats references item.ref ref :=
      ⟨by rw [href]; rfl, tpl, htpl, item, hitem, hneg, hwhole, rfl, hrepeats⟩
    exact ih item.ref henters href

/-- Rolls that every entry with a chance wins, in every loot mode. -/
def luckiest : Dice := ⟨fun _ => 0, fun _ => 0⟩

theorem roll_luckiest (hchance : 0 < item.chance) (s : Rolling) : (item.Roll sv false luckiest s).1 = true := by
  unfold StoreItem.Roll
  split
  · rfl
  · simpa [luckiest] using hchance

theorem process_circle (hloaded : Loaded references) (hcircle : TransGen (Enters sv.repeats references) ref ref)
    (htpl : references ref = some tpl) (fuel : ℕ) (s : Rolling) :
    tpl.Process sv false (2 ^ 16 - 1) luckiest references fuel 0 s = none := by
  induction fuel generalizing ref tpl s with
  | zero => rfl
  | succ fuel ih =>
    obtain ⟨ref', hnext, hsome, tpl', htpl', item, hitem, hneg, hwhole, rfl, hrepeats⟩ := exists_entered hcircle
    obtain rfl := Option.some.inj (htpl.symm.trans htpl')
    obtain ⟨Referenced, href⟩ := Option.isSome_iff_exists.mp hsome
    obtain ⟨hchance, hmode, hmask⟩ := (hloaded ref tpl htpl).2 item hitem hneg
    have hloop : ∀ s, item.process sv false (2 ^ 16 - 1) luckiest references
        (LootTemplate.Process sv false (2 ^ 16 - 1) luckiest references fuel) s = none := by
      intro s
      unfold StoreItem.process
      rw [Nat.and_two_pow_sub_one_eq_mod, Nat.mod_eq_of_lt hmask, if_neg (Nat.pos_iff_ne_zero.mp hmode)]
      simp only [roll_luckiest hchance, Bool.not_true, Bool.false_eq_true, if_false, if_pos hneg, href]
      apply foldlM_none (List.mem_range.mpr hrepeats)
      intro s
      rw [hwhole]
      exact ih hnext href s
    rw [LootTemplate.Process, if_neg (by simp), foldlM_none hitem hloop]
    rfl

end Rolls

/-! ### All tables -/

inductive LootTable where
  | creature | disenchant | fishing | gameobject | item | mail | milling | pickpocketing | prospecting | reference
  | skinning | spell

section Tables
variable (sv : Server) (tables : LootTable → List LootRow)

def storeOf (table : LootTable) : LootTemplateMap := LoadLootTable sv.proto (tables table)

/-- `LootTemplate::Process` ends for every template of every table, whatever is rolled. -/
def GenerationEnds : Prop :=
  ∀ table id tpl, storeOf sv tables table id = some tpl → ∀ rate lootMode dice groupId s,
    (∀ n, 0 ≤ dice.rand_chance n ∧ dice.rand_chance n < 100) →
      ∃ fuel s', tpl.Process sv rate lootMode dice (storeOf sv tables .reference) fuel groupId s = some s'

/-- `HasQuestDrop` and `HasQuestDropForPlayer` end for every template of the table and every player. -/
def SearchEnds (table : LootTable) : Prop :=
  ∀ id tpl, storeOf sv tables table id = some tpl → ∀ w groupId,
    ∃ fuel b, tpl.hasDrop (storeOf sv tables table) w fuel groupId = some b

end Tables

/-- The generation ends exactly when no references that are repeated at all lead back to their template in
`reference_loot_template`, the search in a table exactly when none lead back in the table itself. -/
theorem loot_recursions_end_iff (sv : Server) (tables : LootTable → List LootRow) :
    (GenerationEnds sv tables ↔ ¬Circular sv.repeats (storeOf sv tables .reference)) ∧
      ∀ table, SearchEnds sv tables table ↔ ¬Circular anyEntry (storeOf sv tables table) := by
  have hloaded : ∀ table, Loaded (storeOf sv tables table) := fun table => loaded_LoadLootTable sv.proto (tables table)
  constructor
  · constructor
    · intro hends hcircular
      obtain ⟨ref, hcircle⟩ := hcircular
      obtain ⟨_, _, _, tpl, htpl, -⟩ := exists_entered hcircle
      obtain ⟨fuel, s', hs'⟩ := hends .reference ref tpl htpl false (2 ^ 16 - 1) luckiest 0 ⟨.new 0, 0⟩
        fun _ => ⟨le_refl (0 : ℚ), show (0 : ℚ) < 100 by decide⟩
      rw [process_circle (hloaded .reference) hcircle htpl] at hs'
      exact absurd hs' (by simp)
    · intro hacyclic table id tpl _ rate lootMode dice groupId s _
      have hwf := (hloaded .reference).wellFounded hacyclic
      by_cases hgroup : groupId ≠ 0
      · obtain ⟨s', hs'⟩ := Option.isSome_iff_exists.mp (process_group hgroup (le_refl 1) s)
        exact ⟨1, s', hs'⟩
      · obtain rfl := not_not.mp hgroup
        obtain ⟨n, hn⟩ := process_whole fun _ _ _ _ _ href _ => process_bounded hwf href
        obtain ⟨s', hs'⟩ := Option.isSome_iff_exists.mp (hn n (le_refl n) s)
        exact ⟨n, s', hs'⟩
  · intro table
    constructor
    · intro hends hcircular
      obtain ⟨ref, hcircle⟩ := hcircular
      obtain ⟨_, _, _, tpl, htpl, -⟩ := exists_entered hcircle
      obtain ⟨fuel, b, hb⟩ := hends ref tpl htpl nobody 0
      exact search_circle hcircle (acc_of_search htpl hb)
    · intro hacyclic id tpl htpl w groupId
      by_cases hgroup : groupId ≠ 0
      · exact ⟨1, _, if_pos hgroup⟩
      · obtain rfl := not_not.mp hgroup
        exact search_ends (Subrelation.accessible Searches.enters (((hloaded table).wellFounded hacyclic).apply id)) htpl

end Recursions

end HysteriaCore.Looting

import HysteriaCore.Mails.Books

/-!
# Items on their way

From an inventory into a draft, out of a mail into an inventory or onto stacks
that are there, and gone with a deleted mail.
-/

namespace HysteriaCore.Mails
open Lib Objects

namespace World
variable {w w' s : World} {money : ℕ} {loose : List ℕ} {guid : ℕ}

/-! ### The inventory -/

theorem Books.move (h : Books s w money loose) {inventory : KeyedList Holding.guid} {loose' : List ℕ}
    (hperm : (inventory.rows.map Holding.guid ++ loose').Perm (w.inventory.rows.map Holding.guid ++ loose)) :
    Books s { w with inventory := inventory } money loose' := by
  have hplaced : ((inventory.rows.map Holding.guid ++ mailItems w.mails.rows) ++ loose').Perm
      (w.placed ++ loose) := by
    refine List.perm_iff_count.mpr fun x => ?_
    have hcount := hperm.count_eq x
    unfold placed
    simp only [List.count_append] at hcount ⊢
    omega
  refine ⟨⟨h.capped, h.known, fun m hm => ?_, hplaced.trans h.heap, h.unused, h.records⟩, h.total,
    (hplaced.append_right _).trans h.items, h.units⟩
  exact (h.mails m hm).congr le_rfl (fun _ => rfl) (h.mails m hm).items rfl

theorem Books.attach_perm (h : Books s w money loose) {g : ℕ}
    (hg : g ∈ w.inventory.rows.map Holding.guid ++ loose) :
    ((World.attach (w, loose) g).1.inventory.rows.map Holding.guid ++ (World.attach (w, loose) g).2).Perm
      (w.inventory.rows.map Holding.guid ++ loose) := by
  have hnodup : (w.inventory.rows.map Holding.guid ++ loose).Nodup := by
    have hall := h.nodup
    unfold placed at hall
    rw [List.append_assoc] at hall
    exact hall.sublist ((List.sublist_append_right _ _).append_left _)
  show ((w.inventory.erase g).rows.map Holding.guid ++ addItem loose g).Perm _
  unfold addItem
  by_cases hin : g ∈ loose
  · have hnone : ∀ a ∈ w.inventory, a.guid ≠ g := fun a ha heq =>
      (List.nodup_append.mp hnodup).2.2 a.guid (List.mem_map_of_mem ha) g hin heq
    rw [if_pos hin, w.inventory.erase_of_not_mem hnone]
  · obtain ⟨a, ha, rfl⟩ := List.mem_map.mp ((List.mem_append.mp hg).resolve_right hin)
    rw [if_neg hin]
    refine List.perm_iff_count.mpr fun x => ?_
    have hcount := ((w.inventory.perm_erase ha).map Holding.guid).count_eq x
    simp only [List.count_append, List.map_cons, List.count_cons, List.count_nil] at hcount ⊢
    omega

theorem Books.attach (h : Books s w money loose) {g : ℕ}
    (hg : g ∈ w.inventory.rows.map Holding.guid ++ loose) :
    Books s (World.attach (w, loose) g).1 money (World.attach (w, loose) g).2 := h.move (h.attach_perm hg)

/-! ### Item objects -/

section TopUp
variable {items : KeyedList Item.guid} {dest : List (ℕ × ℕ)} {entry : ℕ}

theorem topUp_guids (items : KeyedList Item.guid) (dest : List (ℕ × ℕ)) :
    (topUp items dest).rows.map Item.guid = items.rows.map Item.guid := by
  induction dest generalizing items with
  | nil => rfl
  | cons p dest ih =>
    refine (ih _).trans ?_
    show (items.rows.map fun x => if x.guid = p.1 then _ else x).map Item.guid = _
    rw [List.map_map]
    refine List.map_congr_left fun x _ => ?_
    show Item.guid (if x.guid = p.1 then _ else x) = x.guid
    split <;> rfl

theorem topUp_mem {it : Item} (hit : it ∈ items) (hne : ∀ p ∈ dest, p.1 ≠ it.guid) : it ∈ topUp items dest := by
  induction dest generalizing items with
  | nil => exact hit
  | cons p dest ih =>
    refine ih ?_ fun q hq => hne q (List.mem_cons_of_mem p hq)
    exact (items.mem_adjust p.1 (fun x => { x with count := x.count + p.2 }) (fun _ => rfl) it).mpr
      ⟨it, hit, if_neg fun heq => hne p List.mem_cons_self heq.symm⟩

theorem topUp_units (hdest : ∀ p ∈ dest, ∃ x ∈ items, x.guid = p.1 ∧ x.entry = entry) (e : ℕ) :
    units (topUp items dest).rows e = units items.rows e + if entry = e then (dest.map Prod.snd).sum else 0 := by
  induction dest generalizing items with
  | nil => simp [topUp]
  | cons p dest ih =>
    obtain ⟨x, hx, hguid, hentry⟩ := hdest p List.mem_cons_self
    have hsum := items.sum_adjust (fun y => if y.entry = e then y.count else 0) hx
      (fun y => { y with count := y.count + p.2 }) fun _ => rfl
    rw [hguid] at hsum
    have hrest := @ih (items.adjust p.1 (fun y => { y with count := y.count + p.2 }) fun _ => rfl)
      fun q hq => by
        obtain ⟨y, hy, hyguid, hyentry⟩ := hdest q (List.mem_cons_of_mem p hq)
        refine ⟨if y.guid = p.1 then { y with count := y.count + p.2 } else y, ?_, ?_, ?_⟩
        · exact (items.mem_adjust p.1 (fun y => { y with count := y.count + p.2 }) (fun _ => rfl) _).mpr ⟨y, hy, rfl⟩
        · split <;> exact hyguid
        · split <;> exact hyentry
    refine hrest.trans ?_
    unfold units
    simp only [hentry, List.map_cons, List.sum_cons] at hsum ⊢
    split at hsum <;> rename_i he
    · simp only [he, if_true] at hsum ⊢
      omega
    · simp only [he, if_false] at hsum ⊢
      omega

end TopUp

/-- What `CanStoreItem` may answer: stacks of the same entry in the inventory of the player,
and for them not more than there is. -/
structure Dest (w : World) (guid : ℕ) (it : Item) (dest : List (ℕ × ℕ)) : Prop where
  entries : ∀ p ∈ dest, ∃ x ∈ w.items, x.guid = p.1 ∧ x.entry = it.entry
  held : ∀ p ∈ dest, ∃ h ∈ w.inventory, h.guid = p.1 ∧ h.holder = guid
  count : (dest.map Prod.snd).sum ≤ it.count

theorem Books.merge (h : Books s w money loose) {items : KeyedList Item.guid} (loose' out : List ℕ)
    (hguids : (items.rows.map Item.guid ++ out).Perm (w.items.rows.map Item.guid))
    (hloose : (loose' ++ out).Perm loose) (hunits : ∀ e, Mails.units items.rows e = Mails.units w.items.rows e) :
    Books s { w with items := items, merged := w.merged ++ out } money loose' := by
  refine ⟨⟨h.capped, h.known, fun m hm => ?_, ?_, h.unused, h.records⟩, h.total, ?_, fun e => ?_⟩
  · exact (h.mails m hm).congr le_rfl (fun _ => rfl) (h.mails m hm).items rfl
  · refine List.perm_iff_count.mpr fun x => ?_
    have hheap := h.heap.count_eq x
    have hguids := hguids.count_eq x
    have hloose := hloose.count_eq x
    rw [List.count_append] at hheap hguids hloose ⊢
    show List.count x w.placed + _ = List.count x (items.rows.map Item.guid)
    omega
  · refine List.perm_iff_count.mpr fun x => ?_
    have hitems := h.items.count_eq x
    have hloose := hloose.count_eq x
    unfold gone at hitems ⊢
    simp only [List.count_append] at hitems hloose ⊢
    show List.count x w.placed + _ + _ = _
    omega
  · rw [← h.units e, ← hunits e]

theorem storeItem_units {it : Item} (hit : it ∈ w.items) {dest : List (ℕ × ℕ)} (hdest : w.Dest guid it dest)
    (hother : ∀ p ∈ dest, p.1 ≠ it.guid) (e : ℕ) :
    units (w.storeItem guid it dest).items.rows e = units w.items.rows e := by
  have hmem := topUp_mem hit hother
  have htop := topUp_units hdest.entries e
  have hcount := hdest.count
  unfold storeItem
  dsimp only
  split
  next hleft =>
    have hsum := (topUp w.items dest).sum_erase (fun y => if y.entry = e then y.count else 0) hmem
    unfold units at htop ⊢
    by_cases he : it.entry = e
    · simp only [he, if_true] at hsum htop ⊢
      omega
    · simp only [he, if_false] at hsum htop ⊢
      omega
  next hleft =>
    have hsum := (topUp w.items dest).sum_adjust (fun y => if y.entry = e then y.count else 0) hmem
      (fun y => { y with count := it.count - (dest.map Prod.snd).sum }) fun _ => rfl
    unfold units at htop ⊢
    by_cases he : it.entry = e
    · simp only [he, if_true] at hsum htop ⊢
      omega
    · simp only [he, if_false] at hsum htop ⊢
      omega

theorem Books.store {it : Item} (h : Books s w money [it.guid]) (hit : it ∈ w.items) {dest : List (ℕ × ℕ)}
    (hdest : w.Dest guid it dest) : Books s (w.storeItem guid it dest) money [] := by
  have hfresh : ∀ a ∈ w.inventory, a.guid ≠ it.guid := fun a ha heq => by
    have hin : a.guid ∈ w.placed := List.mem_append_left _ (List.mem_map_of_mem ha)
    exact (List.nodup_append.mp h.nodup).2.2 a.guid hin it.guid (List.mem_singleton_self _) heq
  have hother : ∀ p ∈ dest, p.1 ≠ it.guid := fun p hp heq => by
    obtain ⟨a, ha, hag, -⟩ := hdest.held p hp
    exact hfresh a ha (hag.trans heq)
  have hmem := topUp_mem hit hother
  have hguids := topUp_guids w.items dest
  have hunits := storeItem_units hit hdest hother
  unfold storeItem at hunits ⊢
  dsimp only at hunits ⊢
  split at hunits
  next hleft =>
    rw [if_pos hleft]
    refine h.merge [] [it.guid] ?_ (.refl _) hunits
    rw [← hguids]
    exact (List.perm_append_singleton _ _).trans (((topUp w.items dest).perm_erase hmem).map Item.guid).symm
  next hleft =>
    rw [if_neg hleft]
    have hsame := (((topUp w.items dest).perm_adjust hmem (fun x => { x with count := it.count -
      (dest.map Prod.snd).sum }) fun _ => rfl).map Item.guid).trans
        (((topUp w.items dest).perm_erase hmem).map Item.guid).symm
    have hbooks := h.merge [it.guid] [] (by rwa [List.append_nil, ← hguids]) (.refl _) hunits
    rw [List.append_nil] at hbooks
    refine hbooks.move ?_
    rw [w.inventory.rows_put_of_new hfresh, List.map_append, List.append_nil]
    exact .refl _

/-! ### Saving -/

theorem filter_notMem_perm {l a b : List ℕ} (hl : l.Nodup) (h : l.Perm (a ++ b)) :
    (l.filter fun g => !decide (g ∈ a)).Perm b := by
  have hnodup := h.nodup_iff.mp hl
  refine (h.filter _).trans ?_
  have hnone : a.filter (fun g => !decide (g ∈ a)) = [] := List.filter_eq_nil_iff.mpr fun g hg => by simpa using hg
  have hall : b.filter (fun g => !decide (g ∈ a)) = b := List.filter_eq_self.mpr fun g hg => by
    simpa using fun hga => (List.nodup_append.mp hnodup).2.2 g hga g hg rfl
  rw [List.filter_append, hnone, hall, List.nil_append]

theorem Books.saveMail (h : Books s w money []) (guid : ℕ) : Books s (w.saveMail guid) money [] := by
  unfold World.saveMail
  split
  case isFalse => exact h
  have hmails := List.filter_append_perm (Mail.isGone guid) w.mails.rows
  have hrows : (w.mails.filter fun m => !m.isGone guid).rows = w.mails.rows.filter fun m => !m.isGone guid := rfl
  have hgone : w.goneMails guid = w.mails.rows.filter (Mail.isGone guid) := rfl
  have hheap := h.heap
  rw [List.append_nil] at hheap
  rw [← hrows, ← hgone] at hmails
  have hplaced : w.placed.Perm (mailItems (w.goneMails guid) ++
      (w.inventory.rows.map Holding.guid ++ mailItems (w.mails.filter fun m => !m.isGone guid).rows)) := by
    refine List.perm_iff_count.mpr fun x => ?_
    have hcount := (mailItems_perm hmails).count_eq x
    rw [mailItems, List.flatMap_append, ← mailItems, ← mailItems] at hcount
    unfold placed
    simp only [List.count_append] at hcount ⊢
    omega
  refine ⟨⟨h.capped, h.known, fun m hm => ?_, ?_, h.unused, h.records⟩, ?_, ?_, fun e => ?_⟩
  · obtain ⟨hm, -⟩ := (w.mails.mem_filter _ m).mp hm
    exact (h.mails m hm).congr le_rfl (fun _ => rfl) (h.mails m hm).items rfl
  · have hkept := filter_notMem_perm w.items.distinct (hheap.symm.trans hplaced)
    rw [List.append_nil]
    refine hkept.symm.trans ?_
    rw [List.filter_map]
    exact .refl _
  · have hsum := (hmails.map Mail.money).sum_nat
    have htotal := h.total
    unfold World.total at htotal ⊢
    rw [List.map_append, List.sum_append] at hsum ⊢
    dsimp only
    omega
  · refine List.perm_iff_count.mpr fun x => ?_
    have hitems := h.items.count_eq x
    have hplaced := hplaced.count_eq x
    have hpurged : mailItems (w.purged ++ w.goneMails guid) = mailItems w.purged ++ mailItems (w.goneMails guid) :=
      List.flatMap_append
    have hbefore : w.gone = mailItems w.purged ++ w.merged := rfl
    rw [placed, gone, hpurged]
    rw [hbefore] at hitems
    simp only [List.count_append, List.count_nil] at hitems hplaced ⊢
    omega
  · have hsum := ((List.filter_append_perm (Item.isIn (w.goneMails guid)) w.items.rows).map
      fun y => if y.entry = e then y.count else 0).sum_nat
    have hrows : (w.items.filter fun item => !item.isIn (w.goneMails guid)).rows =
      w.items.rows.filter fun item => !item.isIn (w.goneMails guid) := rfl
    have hunits := h.units e
    unfold Mails.units at hunits ⊢
    rw [List.map_append, List.sum_append] at hsum ⊢
    rw [hrows]
    omega

end World

end HysteriaCore.Mails

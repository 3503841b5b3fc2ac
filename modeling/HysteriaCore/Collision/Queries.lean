import HysteriaCore.Collision.Subdividing
import Mathlib.Data.List.Nodup

/-!
# What the walks over a built hierarchy find
-/

namespace HysteriaCore.Collision
open Lib Lib.Extended BIH

/-! ### A built hierarchy -/

theorem merge_bounds (boxes : List AABox) : ∀ (acc : AABox) (axis : Fin 3),
    (boxes.foldl AABox.merge acc).lo axis ≤ acc.lo axis ∧ acc.hi axis ≤ (boxes.foldl AABox.merge acc).hi axis ∧
      ∀ b ∈ boxes, (boxes.foldl AABox.merge acc).lo axis ≤ b.lo axis ∧
        b.hi axis ≤ (boxes.foldl AABox.merge acc).hi axis := by
  induction boxes with
  | nil => exact fun acc axis => ⟨le_rfl, le_rfl, fun b hb => absurd hb List.not_mem_nil⟩
  | cons first rest ih =>
    intro acc axis
    obtain ⟨hlo, hhi, hrest⟩ := ih (acc.merge first) axis
    rw [List.foldl_cons]
    refine ⟨hlo.trans (min_le_left _ _), (le_max_left _ _).trans hhi, fun b hb => ?_⟩
    rcases List.mem_cons.mp hb with rfl | hb
    · exact ⟨hlo.trans (min_le_right _ _), (le_max_right _ _).trans hhi⟩
    · exact hrest b hb

structure Made (boxes : List AABox) (bih : BIH) : Prop where
  bounds : ∀ obj < boxes.length, ∀ axis, bih.bounds.lo axis ≤ (bound boxes obj).lo axis ∧
    (bound boxes obj).hi axis ≤ bih.bounds.hi axis
  perm : bih.objects.Perm (List.range boxes.length)
  stored : ∃ (indices : ℕ → ℕ) (h : Hierarchy), bih.objects = (List.range boxes.length).map indices ∧
    Stored bih.tree boxes.length indices h 0 ∧ h.objects = bih.objects ∧ h.Bounds (bound boxes) ∧
    h.branches ≤ MAX_STACK_SIZE

theorem segment_all (indices : ℕ → ℕ) (n : ℕ) : segment indices 0 n = (List.range n).map indices := by
  unfold segment
  rw [Nat.sub_zero, List.range_eq_range']

theorem build_made {fuel leafSize : ℕ} {first : AABox} {rest : List AABox}
    (hboxes : ∀ b ∈ first :: rest, ∀ axis, b.lo axis ≤ b.hi axis) {r : Except String BIH}
    (hbuild : build fuel first rest leafSize = some r) : ∃ bih, r = .ok bih ∧ Made (first :: rest) bih := by
  unfold build at hbuild
  simp only at hbuild
  generalize hboxes' : first :: rest = boxes at hboxes hbuild ⊢
  have hlen : 0 < boxes.length := by rw [← hboxes']; exact Nat.succ_pos _
  have hmerge : ∀ obj < boxes.length, ∀ axis, (boxes.foldl AABox.merge first).lo axis ≤ (bound boxes obj).lo axis ∧
      (bound boxes obj).hi axis ≤ (boxes.foldl AABox.merge first).hi axis := by
    intro obj hobj axis
    unfold bound
    rw [List.getD_eq_getElem?_getD, List.getElem?_eq_getElem hobj, Option.getD_some]
    exact (merge_bounds boxes first axis).2.2 _ (List.getElem_mem hobj)
  generalize boxes.foldl AABox.merge first = bounds at hbuild hmerge
  obtain ⟨result, hresult, rfl⟩ := Option.map_eq_some_iff.mp hbuild
  have hready : Ready boxes
      { left := 0, right := boxes.length, tempTree := emptyTree, indices := id, gridBox := bounds,
        nodeBox := ⟨fun i => fin (bounds.lo i), fun i => fin (bounds.hi i)⟩, nodeIndex := 0, depth := 1 } := by
    refine ⟨hlen, le_rfl, fun j _ hlt axis => ?_⟩
    obtain ⟨hlo, hhi⟩ := hmerge j hlt axis
    obtain ⟨hbelow, habove⟩ := center_bounds hboxes j axis
    exact ⟨⟨hlo.trans hbelow, habove.trans hhi⟩, fin_le_fin.mpr hlo, fin_le_fin.mpr hhi⟩
  obtain ⟨tree, indices, rfl, hgrown⟩ := returns_enter _ (returns_subdivideLoop _ hboxes fuel) hready result hresult
  refine ⟨_, rfl, hmerge, ?_, indices, ?_⟩
  · have hperm := hgrown.perm
    rw [segment_all, segment_all, List.map_id] at hperm
    exact hperm
  · obtain ⟨h, hobjects, hbounds, hbranches, hstored⟩ := hgrown.stands
    rw [segment_all] at hobjects
    exact ⟨h, rfl, hstored le_rfl le_rfl (fun _ _ => rfl) (fun _ _ _ => rfl), hobjects, hbounds,
      hbranches.trans (Nat.sub_le _ _)⟩

/-- The nodes that a walk may come to: no child behind an infinite plane. -/
inductive Reached (bih : BIH) : ℕ → Prop where
  | root : Reached bih 0
  | left {node : ℕ} {axis : Fin 3} {clipL clipR : Extended ℚ} {offset : ℕ} : Reached bih node →
      bih.view node = some (.inner axis clipL clipR offset) → clipL ≠ ⊥ → Reached bih offset
  | right {node : ℕ} {axis : Fin 3} {clipL clipR : Extended ℚ} {offset : ℕ} : Reached bih node →
      bih.view node = some (.inner axis clipL clipR offset) → clipR ≠ ⊤ → Reached bih (offset + 3)
  | child {node : ℕ} {axis : Fin 3} {lo hi : Extended ℚ} {offset : ℕ} : Reached bih node →
      bih.view node = some (.bvh2 axis lo hi offset) → Reached bih offset

def Fits (boxes : List AABox) (bih : BIH) : Prop := boxes.length ≤ 2 ^ 29 ∧ bih.tree.size ≤ 2 ^ 29

section Reached
variable {bih : BIH} {n : ℕ} {indices : ℕ → ℕ} (hsmall : Small bih n indices)
include hsmall

theorem Stored.readable {h : Hierarchy} {node : ℕ} (hstored : Stored bih.tree n indices h node) :
    Readable bih node := by
  refine ⟨hstored.lt_size, ?_⟩
  cases h with
  | leaf objects =>
    rw [view_leaf hsmall hstored]
    exact Option.some_ne_none _
  | split axis clipL clipR left right =>
    obtain ⟨off, hview, -⟩ := view_split hsmall hstored
    rw [hview]
    exact Option.some_ne_none _
  | cut axis lo hi child =>
    obtain ⟨off, hview, -⟩ := view_cut hsmall hstored
    rw [hview]
    exact Option.some_ne_none _

theorem reached_stored {h : Hierarchy} (hroot : Stored bih.tree n indices h 0) {node : ℕ} (hreached : Reached bih node) :
    ∃ h' : Hierarchy, Stored bih.tree n indices h' node := by
  have hinner : ∀ {node : ℕ} {axis : Fin 3} {clipL clipR : Extended ℚ} {offset : ℕ} {h' : Hierarchy},
      Stored bih.tree n indices h' node → bih.view node = some (.inner axis clipL clipR offset) →
      ∃ left right, (clipL ≠ ⊥ → Stored bih.tree n indices left offset) ∧
        (clipR ≠ ⊤ → Stored bih.tree n indices right (offset + 3)) := by
    intro node axis clipL clipR offset h' hstored hview
    cases h' with
    | leaf objects => exact absurd ((view_leaf hsmall hstored).symm.trans hview) (by simp)
    | split axis' clipL' clipR' left right =>
      obtain ⟨off, hview', hl, hr⟩ := view_split hsmall hstored
      obtain ⟨rfl, rfl, rfl, rfl⟩ := NodeView.inner.inj (Option.some.inj (hview'.symm.trans hview))
      exact ⟨left, right, hl, hr⟩
    | cut axis' lo hi child =>
      obtain ⟨off, hview', -⟩ := view_cut hsmall hstored
      exact absurd (hview'.symm.trans hview) (by simp)
  induction hreached with
  | root => exact ⟨h, hroot⟩
  | left _ hview hne ih =>
    obtain ⟨h', hstored⟩ := ih
    obtain ⟨left, right, hl, -⟩ := hinner hstored hview
    exact ⟨left, hl hne⟩
  | right _ hview hne ih =>
    obtain ⟨h', hstored⟩ := ih
    obtain ⟨left, right, -, hr⟩ := hinner hstored hview
    exact ⟨right, hr hne⟩
  | child _ hview ih =>
    obtain ⟨h', hstored⟩ := ih
    cases h' with
    | leaf objects => exact absurd ((view_leaf hsmall hstored).symm.trans hview) (by simp)
    | split axis' clipL clipR left right =>
      obtain ⟨off, hview', -⟩ := view_split hsmall hstored
      exact absurd (hview'.symm.trans hview) (by simp)
    | cut axis' lo hi child =>
      obtain ⟨off, hview', hchild⟩ := view_cut hsmall hstored
      obtain ⟨rfl, rfl, rfl, rfl⟩ := NodeView.bvh2.inj (Option.some.inj (hview'.symm.trans hview))
      exact ⟨child, hchild⟩

end Reached

/-! ### Points -/

/-- A walk that returns after finitely many steps, and has come to nodes of the tree only. -/
def Finishes (bih : BIH) (walk : ℕ → Option (Option Walk)) (w : Walk) : Prop :=
  (∃ k, ∀ fuel, k ≤ fuel → walk fuel = some (some w)) ∧ ∀ m ∈ w.nodes, Readable bih m

theorem finishes_of_walks {bih : BIH} {step pop : Walk → Next} {w : Walk} {calls : List ℕ}
    (hpop : ∀ w', w'.stack = [] → pop w' = .done w') (hstack : w.stack = []) (hnodes : w.nodes = [])
    (hwalks : Walks bih step pop w calls) :
    ∃ w', Finishes bih (fun fuel => run step fuel w) w' ∧ w'.calls = w.calls ++ calls := by
  obtain ⟨k, w', hstack', hcalls, -, hreadable, hrun⟩ := hwalks
  refine ⟨w', ⟨⟨k, fun fuel hfuel => ?_⟩, fun m hm => ?_⟩, hcalls⟩
  · obtain ⟨extra, rfl⟩ := Nat.exists_eq_add_of_le hfuel
    show run step (k + extra) w = some (some w')
    rw [hrun, hpop w' (hstack'.trans hstack)]
    rfl
  · rcases hreadable m hm with hold | hnew
    · rw [hnodes] at hold
      exact absurd hold List.not_mem_nil
    · exact hnew

section Queries
variable {boxes : List AABox} {bih : BIH} (hmade : Made boxes bih) (hfits : Fits boxes bih)
include hmade hfits

theorem point_query (p : Vector3) : ∃ w, Finishes bih (fun fuel => bih.intersectPoint fuel p) w ∧
    ∀ i < boxes.length, (bound boxes i).contains p = true → w.calls.count i = 1 := by
  obtain ⟨hbounds, hperm, indices, h, hobjects, hstored, hall, hplanes, hbranches⟩ := hmade
  have hsmall : Small bih boxes.length indices := ⟨hobjects, hfits.1, hfits.2⟩
  unfold BIH.intersectPoint
  by_cases hin : bih.bounds.contains p = true
  · simp only [hin, if_true]
    obtain ⟨w, hfinishes, hcalls⟩ := finishes_of_walks (fun w' hstack => by unfold pointPop; rw [hstack]) rfl rfl
      (point_walks hsmall p (w := ⟨0, [], ⊥, ⊥, ⊥, [], []⟩) hstored ((Nat.zero_add _).trans_le hbranches))
    refine ⟨w, hfinishes, fun i hi hcontains => ?_⟩
    have hnodup : h.objects.Nodup := by
      rw [hall]
      exact hperm.nodup_iff.mpr List.nodup_range
    have hmem : i ∈ h.objects := by
      rw [hall]
      exact hperm.mem_iff.mpr (List.mem_range.mpr hi)
    rw [hcalls]
    exact List.count_eq_one_of_mem (hnodup.sublist (Hierarchy.pointObjects_sublist p h))
      (Hierarchy.mem_pointObjects hcontains hplanes hmem)
  · simp only [hin, if_false, Bool.false_eq_true]
    refine ⟨_, ⟨⟨0, fun _ _ => rfl⟩, fun m hm => absurd hm List.not_mem_nil⟩, fun i hi hcontains => absurd ?_ hin⟩
    rw [Hierarchy.contains_iff] at hcontains ⊢
    exact fun axis => ⟨(hbounds i hi axis).1.trans (hcontains axis).1, (hcontains axis).2.trans (hbounds i hi axis).2⟩

end Queries

/-! ### Rays -/

def BIH.entersAt (bih : BIH) (r : Ray) (i : Fin 3) : ℚ :=
  min ((bih.bounds.lo i - r.org i) * r.invDir i) ((bih.bounds.hi i - r.org i) * r.invDir i)

def BIH.leavesAt (bih : BIH) (r : Ray) (i : Fin 3) : ℚ :=
  max ((bih.bounds.lo i - r.org i) * r.invDir i) ((bih.bounds.hi i - r.org i) * r.invDir i)

def BIH.Ray.Along (r : Ray) (i : Fin 3) : Prop := fuzzyEq (r.dir i) 0 = false

/-- Along no axis is it the beginning or the end of the ray that alone touches the bounds. -/
structure Passes (bih : BIH) (r : Ray) (maxDist : Extended ℚ) : Prop where
  direction : ∃ i, r.Along i
  leaves : ∀ i, r.Along i → 0 < bih.leavesAt r i
  enters : ∀ i, r.Along i → fin (bih.entersAt r i) < maxDist

theorem rayBack_nil {w : Walk} (hstack : w.stack = []) : rayBack w = .done w := by
  cases w
  simp only at hstack
  rw [hstack]
  rfl

section Clip
variable {bih : BIH} {r : Ray} {maxDist : Extended ℚ}

structure Narrowed (maxDist : Extended ℚ) (interval : Extended ℚ × Extended ℚ) : Prop where
  bot_lt : ⊥ < interval.1
  lt_top : interval.2 < ⊤
  lt_max : interval.1 < maxDist

theorem clipAxis_eq (interval : Extended ℚ × Extended ℚ) {i : Fin 3} (halong : r.Along i) :
    bih.clipAxis r maxDist interval i =
      let lo := if interval.1 < fin (bih.entersAt r i) then fin (bih.entersAt r i) else interval.1
      let hi := if fin (bih.leavesAt r i) < interval.2 ∨ interval.2 < fin 0 then fin (bih.leavesAt r i) else interval.2
      if hi ≤ fin 0 ∨ maxDist ≤ lo then none else some (lo, hi) := by
  have hfalse : ¬ fuzzyEq (r.dir i) 0 = true := by rw [halong]; decide
  have hmin : ∀ a b : ℚ, (if b < a then b else a) = min a b := by
    intro a b
    split
    · exact (min_eq_right (le_of_lt ‹_›)).symm
    · exact (min_eq_left (not_lt.mp ‹_›)).symm
  have hmax : ∀ a b : ℚ, (if b < a then a else b) = max a b := by
    intro a b
    split
    · exact (max_eq_left (le_of_lt ‹_›)).symm
    · exact (max_eq_right (not_lt.mp ‹_›)).symm
  unfold clipAxis BIH.entersAt BIH.leavesAt
  rw [if_neg hfalse]
  simp only [hmin, hmax]

theorem clipAxis_clipped {interval interval' : Extended ℚ × Extended ℚ} {i : Fin 3}
    (h : bih.clipAxis r maxDist interval i = some interval') (hold : Narrowed maxDist interval) :
    Narrowed maxDist interval' ∧ (r.Along i ∨ fin 0 < interval.2 → fin 0 < interval'.2) := by
  by_cases halong : r.Along i
  · rw [clipAxis_eq interval halong] at h
    simp only at h
    have hlo : ⊥ < if interval.1 < fin (bih.entersAt r i) then fin (bih.entersAt r i) else interval.1 := by
      split
      · exact bot_lt_fin _
      · exact hold.bot_lt
    have hhi : (if fin (bih.leavesAt r i) < interval.2 ∨ interval.2 < fin 0 then fin (bih.leavesAt r i)
        else interval.2) < ⊤ := by
      split
      · exact fin_lt_top _
      · exact hold.lt_top
    generalize (if interval.1 < fin (bih.entersAt r i) then fin (bih.entersAt r i) else interval.1) = lo at h hlo
    generalize (if fin (bih.leavesAt r i) < interval.2 ∨ interval.2 < fin 0 then fin (bih.leavesAt r i)
      else interval.2) = hi at h hhi
    split at h
    · exact absurd h (Option.some_ne_none _).symm
    · rename_i hgo
      obtain rfl := Option.some.inj h
      exact ⟨⟨hlo, hhi, not_le.mp fun hle => hgo (.inr hle)⟩, fun _ => not_le.mp fun hle => hgo (.inl hle)⟩
  · unfold clipAxis at h
    rw [if_pos (Bool.not_eq_false _ ▸ halong)] at h
    obtain rfl := Option.some.inj h
    exact ⟨hold, fun hpos => hpos.resolve_left halong⟩

theorem clipAxis_meets {t : ℚ} (hdir : ∀ i, r.dir i ≠ 0) (hmeets : Hierarchy.Meets r bih.bounds t)
    (hpasses : Passes bih r maxDist) {interval : Extended ℚ × Extended ℚ} {i : Fin 3}
    (hlo : interval.1 ≤ fin t) (hmax : interval.1 < maxDist)
    (hhi : interval.2 < fin 0 ∨ fin t ≤ interval.2 ∧ fin 0 < interval.2) :
    ∃ interval' : Extended ℚ × Extended ℚ, bih.clipAxis r maxDist interval i = some interval' ∧
      interval'.1 ≤ fin t ∧ interval'.1 < maxDist ∧
      (interval'.2 < fin 0 ∨ fin t ≤ interval'.2 ∧ fin 0 < interval'.2) := by
  by_cases halong : r.Along i
  · have hin : bih.entersAt r i ≤ t ∧ t ≤ bih.leavesAt r i := by
      obtain ⟨hlow, hhigh⟩ := hmeets i
      have hpoint : t = (r.org i + t * r.dir i - r.org i) * r.invDir i := by
        unfold Ray.invDir
        rw [add_sub_cancel_left, mul_one_div, mul_div_cancel_right₀ t (hdir i)]
      unfold BIH.entersAt BIH.leavesAt
      rcases lt_or_gt_of_ne (hdir i) with hneg | hpos
      · have hinv : r.invDir i ≤ 0 := by unfold Ray.invDir; exact (one_div_neg.mpr hneg).le
        have hfirst := mul_le_mul_of_nonpos_right (sub_le_sub_right hlow (r.org i)) hinv
        have hlast := mul_le_mul_of_nonpos_right (sub_le_sub_right hhigh (r.org i)) hinv
        rw [← hpoint] at hfirst hlast
        exact ⟨(min_le_right _ _).trans hlast, hfirst.trans (le_max_left _ _)⟩
      · have hinv : 0 ≤ r.invDir i := by unfold Ray.invDir; exact (one_div_pos.mpr hpos).le
        have hfirst := mul_le_mul_of_nonneg_right (sub_le_sub_right hlow (r.org i)) hinv
        have hlast := mul_le_mul_of_nonneg_right (sub_le_sub_right hhigh (r.org i)) hinv
        rw [← hpoint] at hfirst hlast
        exact ⟨(min_le_left _ _).trans hfirst, hlast.trans (le_max_right _ _)⟩
    have hleaves := fin_lt_fin.mpr (hpasses.leaves i halong)
    have henters := hpasses.enters i halong
    rw [clipAxis_eq interval halong]
    simp only
    generalize hl : (if interval.1 < fin (bih.entersAt r i) then fin (bih.entersAt r i) else interval.1) = lo
    generalize hh : (if fin (bih.leavesAt r i) < interval.2 ∨ interval.2 < fin 0 then fin (bih.leavesAt r i)
      else interval.2) = hi
    have hlo' : lo ≤ fin t ∧ lo < maxDist := by
      rw [← hl]
      split
      · exact ⟨fin_le_fin.mpr hin.1, henters⟩
      · exact ⟨hlo, hmax⟩
    have hhi' : fin t ≤ hi ∧ fin 0 < hi := by
      rw [← hh]
      split
      · exact ⟨fin_le_fin.mpr hin.2, hleaves⟩
      · rename_i hnot
        exact hhi.resolve_left fun hneg => hnot (.inr hneg)
    rw [if_neg fun hstop => hstop.elim hhi'.2.not_ge hlo'.2.not_ge]
    exact ⟨(lo, hi), rfl, hlo'.1, hlo'.2, .inr hhi'⟩
  · unfold clipAxis
    rw [if_pos (Bool.not_eq_false _ ▸ halong)]
    exact ⟨interval, rfl, hlo, hmax, hhi⟩

theorem clipped_foldlM (axes : List (Fin 3)) : ∀ {interval out : Extended ℚ × Extended ℚ},
    axes.foldlM (bih.clipAxis r maxDist) interval = some out → Narrowed maxDist interval →
    Narrowed maxDist out ∧ ((∃ i ∈ axes, r.Along i) ∨ fin 0 < interval.2 → fin 0 < out.2) := by
  induction axes with
  | nil =>
    intro interval out h hold
    obtain rfl := Option.some.inj h
    refine ⟨hold, ?_⟩
    rintro (⟨i, hi, -⟩ | hpos)
    · exact absurd hi List.not_mem_nil
    · exact hpos
  | cons i axes ih =>
    intro interval out h hold
    obtain ⟨next, hnext, hrest⟩ := Option.bind_eq_some_iff.mp h
    obtain ⟨hclipped, hpos⟩ := clipAxis_clipped hnext hold
    obtain ⟨hout, hend⟩ := ih hrest hclipped
    refine ⟨hout, fun hwhy => hend ?_⟩
    rcases hwhy with ⟨j, hj, halong⟩ | hold'
    · rcases List.mem_cons.mp hj with rfl | hj
      · exact .inr (hpos (.inl halong))
      · exact .inl ⟨j, hj, halong⟩
    · exact .inr (hpos (.inr hold'))

theorem meets_foldlM {t : ℚ} (hdir : ∀ i, r.dir i ≠ 0) (hmeets : Hierarchy.Meets r bih.bounds t)
    (hpasses : Passes bih r maxDist) (axes : List (Fin 3)) : ∀ {interval : Extended ℚ × Extended ℚ},
    interval.1 ≤ fin t → interval.1 < maxDist →
    (interval.2 < fin 0 ∨ fin t ≤ interval.2 ∧ fin 0 < interval.2) →
    ∃ out : Extended ℚ × Extended ℚ, axes.foldlM (bih.clipAxis r maxDist) interval = some out ∧
      out.1 ≤ fin t ∧ (out.2 < fin 0 ∨ fin t ≤ out.2) := by
  induction axes with
  | nil => exact fun hlo _ hhi => ⟨_, rfl, hlo, hhi.imp_right And.left⟩
  | cons i axes ih =>
    intro interval hlo hmax hhi
    obtain ⟨next, hnext, hlo', hmax', hhi'⟩ := clipAxis_meets (i := i) hdir hmeets hpasses hlo hmax hhi
    obtain ⟨out, hout, hin⟩ := ih hlo' hmax' hhi'
    refine ⟨out, ?_, hin⟩
    rw [List.foldlM_cons, hnext]
    exact hout

theorem ray_query {boxes : List AABox} (hmade : Made boxes bih) (hfits : Fits boxes bih) {callback : Callback}
    (hpassive : Passive callback) (stop : Bool) (hdir : ∀ i, r.dir i ≠ 0) (hmax : fin 0 < maxDist)
    (hpasses : Passes bih r maxDist) :
    ∃ w, Finishes bih (fun fuel => bih.intersectRay fuel r callback maxDist stop) w ∧
      ∀ i < boxes.length, ∀ t : ℚ, 0 ≤ t → fin t ≤ maxDist → Hierarchy.Meets r (bound boxes i) t → i ∈ w.calls := by
  obtain ⟨hbounds, hperm, indices, h, hobjects, hstored, hall, hplanes, hbranches⟩ := hmade
  have hsmall : Small bih boxes.length indices := ⟨hobjects, hfits.1, hfits.2⟩
  have hstart : fin (-1) < maxDist := (fin_lt_fin.mpr (by decide)).trans hmax
  -- what is met is met within the bounds
  have hinside : ∀ i < boxes.length, ∀ t, 0 ≤ t → Hierarchy.Meets r (bound boxes i) t →
      ∃ out : Extended ℚ × Extended ℚ,
        [0, 1, 2].foldlM (bih.clipAxis r maxDist) (fin (-1), fin (-1)) = some out ∧
        out.1 ≤ fin t ∧ (out.2 < fin 0 ∨ fin t ≤ out.2) := by
    intro i hi t ht hmeets
    refine meets_foldlM hdir (fun axis => ?_) hpasses _ (fin_le_fin.mpr (by linarith)) hstart (.inl (fin_lt_fin.mpr (by decide)))
    exact ⟨(hbounds i hi axis).1.trans (hmeets axis).1, (hmeets axis).2.trans (hbounds i hi axis).2⟩
  unfold BIH.intersectRay
  simp only
  cases hfold : [0, 1, 2].foldlM (bih.clipAxis r maxDist) (fin (-1), fin (-1)) with
  | none =>
    refine ⟨_, ⟨⟨0, fun _ _ => rfl⟩, fun m hm => absurd hm List.not_mem_nil⟩, fun i hi t ht _ hmeets => ?_⟩
    obtain ⟨out, hout, -⟩ := hinside i hi t ht hmeets
    exact absurd (hfold.symm.trans hout) (Option.some_ne_none _).symm
  | some interval =>
    obtain ⟨hclipped, hpos⟩ := clipped_foldlM [0, 1, 2] hfold ⟨bot_lt_fin _, fin_lt_top _, hstart⟩
    have hends : fin 0 < interval.2 := by
      obtain ⟨i, halong⟩ := hpasses.direction
      have hmem : ∀ i : Fin 3, i ∈ [0, 1, 2] := by decide
      exact hpos (.inl ⟨i, hmem i, halong⟩)
    have hwithin : ∀ i < boxes.length, ∀ t, 0 ≤ t → Hierarchy.Meets r (bound boxes i) t →
        interval.1 ≤ fin t ∧ fin t ≤ interval.2 := by
      intro i hi t ht hmeets
      obtain ⟨out, hout, hlo, hhi⟩ := hinside i hi t ht hmeets
      obtain rfl := Option.some.inj (hfold.symm.trans hout)
      exact ⟨hlo, hhi.resolve_left hends.not_gt⟩
    by_cases hempty : interval.2 < interval.1
    · simp only [hempty, if_true]
      refine ⟨_, ⟨⟨0, fun _ _ => rfl⟩, fun m hm => absurd hm List.not_mem_nil⟩, fun i hi t ht _ hmeets => ?_⟩
      obtain ⟨hlo, hhi⟩ := hwithin i hi t ht hmeets
      exact absurd hempty (hlo.trans hhi).not_gt
    · simp only [hempty, if_false]
      have hinterval : Interval (max interval.1 (fin 0)) (min interval.2 maxDist) maxDist :=
        ⟨hclipped.bot_lt.trans_le (le_max_left _ _),
          max_le (le_min (not_lt.mp hempty) hclipped.lt_max.le) (le_min hends.le hmax.le),
          (min_le_left _ _).trans_lt hclipped.lt_top, min_le_right _ _⟩
      obtain ⟨w, hfinishes, hcalls⟩ := finishes_of_walks
        (fun w' hstack => rayBack_nil hstack) rfl rfl
        (ray_walks hsmall hpassive stop (r := r)
          (w := ⟨0, [], max interval.1 (fin 0), min interval.2 maxDist, maxDist, [], []⟩) hstored hinterval
          ((Nat.zero_add _).trans_le hbranches))
      refine ⟨w, hfinishes, fun i hi t ht hle hmeets => ?_⟩
      obtain ⟨hlo, hhi⟩ := hwithin i hi t ht hmeets
      have hmem : i ∈ h.objects := by
        rw [hall]
        exact hperm.mem_iff.mpr (List.mem_range.mpr hi)
      rw [hcalls]
      exact Hierarchy.mem_rayObjects hdir hmeets hplanes hmem (max_le hlo (fin_le_fin.mpr ht)) (le_min hhi hle)

end Clip

/-! ### The hierarchy misses nothing -/

theorem misses_nothing {fuel leafSize : ℕ} {first : AABox} {rest : List AABox}
    (hboxes : ∀ b ∈ first :: rest, ∀ axis, b.lo axis ≤ b.hi axis) {r : Except String BIH}
    (hbuild : build fuel first rest leafSize = some r) :
    ∃ bih, r = .ok bih ∧ bih.objects.Perm (List.range (first :: rest).length) ∧
      (Fits (first :: rest) bih →
        (∀ node, Reached bih node → Readable bih node) ∧
        (∀ p, ∃ w, Finishes bih (fun fuel => bih.intersectPoint fuel p) w ∧
          ∀ i < (first :: rest).length, (bound (first :: rest) i).contains p = true → w.calls.count i = 1) ∧
        ∀ (ray : Ray) (callback : Callback) (maxDist : Extended ℚ) (stop : Bool), Passive callback →
          (∀ i, ray.dir i ≠ 0) → fin 0 < maxDist → Passes bih ray maxDist →
          ∃ w, Finishes bih (fun fuel => bih.intersectRay fuel ray callback maxDist stop) w ∧
            ∀ i < (first :: rest).length, ∀ t : ℚ, 0 ≤ t → fin t ≤ maxDist →
              Hierarchy.Meets ray (bound (first :: rest) i) t → i ∈ w.calls) := by
  obtain ⟨bih, rfl, hmade⟩ := build_made hboxes hbuild
  refine ⟨bih, rfl, hmade.perm, fun hfits => ⟨fun node hreached => ?_, point_query hmade hfits, ?_⟩⟩
  · obtain ⟨indices, h, hobjects, hstored, -⟩ := hmade.stored
    have hsmall : Small bih (first :: rest).length indices := ⟨hobjects, hfits.1, hfits.2⟩
    obtain ⟨h', hstored'⟩ := reached_stored hsmall hstored hreached
    exact hstored'.readable hsmall
  · intro ray callback maxDist stop hpassive hdir hmax hpasses
    exact ray_query hmade hfits hpassive stop hdir hmax hpasses

def cube (lo hi : ℚ) : AABox := ⟨fun _ => lo, fun _ => hi⟩

def diagonal : Ray := ⟨fun _ => -1, fun _ => 1⟩

def quiet : Callback := fun _ d => (false, d)

theorem quiet_passive : Passive quiet := fun _ _ => ⟨rfl, le_rfl⟩

def metAlong (ray : Ray) (built : Option (Except String BIH)) : Bool :=
  match built with
  | some (.ok bih) => decide (bih.tree.size ≤ 2 ^ 29 ∧ ∀ i, 0 < bih.leavesAt ray i)
  | _ => false

theorem misses_nothing_diagonal : ∃ bih w, build 4 (cube 0 1) [cube 2 3] 1 = some (.ok bih) ∧
    Finishes bih (fun fuel => bih.intersectRay fuel diagonal quiet ⊤ false) w ∧ 0 ∈ w.calls ∧ 1 ∈ w.calls := by
  have hchecked : metAlong diagonal (build 4 (cube 0 1) [cube 2 3] 1) = true := by decide +kernel
  have hboxes : ∀ b ∈ [cube 0 1, cube 2 3], ∀ axis, b.lo axis ≤ b.hi axis := by
    intro b hb axis
    rcases List.mem_cons.mp hb with rfl | hb
    · exact (by decide +kernel : (0 : ℚ) ≤ 1)
    · obtain rfl := List.mem_singleton.mp hb
      exact (by decide +kernel : (2 : ℚ) ≤ 3)
  cases hbuild : build 4 (cube 0 1) [cube 2 3] 1 with
  | none =>
    rw [hbuild] at hchecked
    exact absurd hchecked Bool.false_ne_true
  | some r =>
    obtain ⟨bih, rfl, -, hall⟩ := misses_nothing hboxes hbuild
    rw [hbuild] at hchecked
    obtain ⟨hsize, hleaves⟩ := of_decide_eq_true hchecked
    obtain ⟨-, -, hrays⟩ := hall ⟨by decide, hsize⟩
    have hpasses : Passes bih diagonal ⊤ :=
      ⟨⟨0, by unfold Ray.Along; decide +kernel⟩, fun i _ => hleaves i, fun i _ => fin_lt_top _⟩
    obtain ⟨w, hfinishes, hmet⟩ :=
      hrays diagonal quiet ⊤ false quiet_passive (fun _ => one_ne_zero) (fin_lt_top _) hpasses
    refine ⟨bih, w, rfl, hfinishes, hmet 0 (by decide) (3 / 2) (by norm_num) le_top ?_,
      hmet 1 (by decide) (7 / 2) (by norm_num) le_top ?_⟩
    · exact fun axis => (by decide +kernel : (0 : ℚ) ≤ -1 + 3 / 2 * 1 ∧ (-1 : ℚ) + 3 / 2 * 1 ≤ 1)
    · exact fun axis => (by decide +kernel : (2 : ℚ) ≤ -1 + 7 / 2 * 1 ∧ (-1 : ℚ) + 7 / 2 * 1 ≤ 3)

/-! ### Where it does miss something -/

def Missed (built : Option (Except String BIH)) (walk : BIH → Option (Option Walk)) (i : ℕ) : Prop :=
  ∃ bih w, built = some (.ok bih) ∧ walk bih = some (some w) ∧ i ∉ w.calls

def missed (built : Option (Except String BIH)) (walk : BIH → Option (Option Walk)) (i : ℕ) : Bool :=
  match built with
  | some (.ok bih) =>
    match walk bih with
    | some (some w) => !w.calls.contains i
    | _ => false
  | _ => false

theorem missed_of_eq {built : Option (Except String BIH)} {walk : BIH → Option (Option Walk)} {i : ℕ}
    (h : missed built walk i = true) : Missed built walk i := by
  unfold missed at h
  split at h
  · rename_i bih
    split at h
    · rename_i w hwalk
      refine ⟨bih, w, rfl, hwalk, fun hmem => ?_⟩
      rw [Bool.not_eq_true'] at h
      exact absurd (List.contains_iff_mem.mpr hmem) (h ▸ Bool.false_ne_true)
    · exact absurd h Bool.false_ne_true
  · exact absurd h Bool.false_ne_true

def leaving : Ray := ⟨![1, 1 / 2, 1 / 2], fun _ => 1⟩

def slow : Ray := ⟨fun _ => -1, fun _ => 1 / 1000000⟩

def heap (k : ℕ) : List AABox := List.replicate k (cube 0 0) ++ [cube 1 1]

theorem bound_heap_lt {k i : ℕ} (hi : i < k) : bound (heap k) i = cube 0 0 := by
  unfold bound heap
  rw [List.getD_eq_getElem?_getD, List.getElem?_append_left (by rw [List.length_replicate]; exact hi),
    List.getElem?_replicate, if_pos hi, Option.getD_some]

theorem bound_heap_last (k : ℕ) : bound (heap k) k = cube 1 1 := by
  unfold bound heap
  rw [List.getD_eq_getElem?_getD, List.getElem?_append_right (by rw [List.length_replicate]), List.length_replicate,
    Nat.sub_self]
  rfl

theorem partition_heap (k : ℕ) (axis : Fin 3) : ∀ (j i : ℕ), i + j = k →
    partition (heap k) axis (1 / 2) (j + 1) i ⟨id, fin 0, ⊤, fin 0, fin 0⟩ = (k, ⟨id, fin 0, fin 1, fin 0, fin 1⟩) := by
  intro j
  induction j with
  | zero =>
    intro i hi
    obtain rfl : i = k := hi
    unfold partition
    simp only [id, bound_heap_last]
    rw [if_neg (by unfold cube; norm_num)]
    unfold partition
    simp [cube]
  | succ j ih =>
    intro i hi
    unfold partition
    simp only [id, bound_heap_lt (show i < k by omega)]
    rw [if_pos (by unfold cube; norm_num)]
    simpa [cube] using ih (i + 1) (by omega)

theorem partition_heap_all {k : ℕ} (hk : 0 < k) (axis : Fin 3) :
    partition (heap k) axis (1 / 2) (k + 1) 0 ⟨id, ⊥, ⊤, ⊤, ⊥⟩ = (k, ⟨id, fin 0, fin 1, fin 0, fin 1⟩) := by
  obtain ⟨j, rfl⟩ := Nat.exists_eq_add_of_lt hk
  have hrest := partition_heap (0 + j + 1) axis j 1 (by omega)
  unfold partition
  simp only [id, bound_heap_lt (show 0 < 0 + j + 1 by omega)]
  rw [if_pos (by unfold cube; norm_num)]
  simpa [cube] using hrest

theorem merge_heap (k : ℕ) : (heap k).foldl AABox.merge (cube 0 0) = cube 0 1 := by
  have hsame : ∀ k, (List.replicate k (cube 0 0)).foldl AABox.merge (cube 0 0) = cube 0 0 := by
    intro k
    induction k with
    | zero => rfl
    | succ k ih =>
      rw [List.replicate_succ, List.foldl_cons]
      simpa [AABox.merge, cube] using ih
  unfold heap
  rw [List.foldl_append, hsame]
  simp [AABox.merge, cube]

def heapTree (k : ℕ) : Words :=
  createNode (createNode ((emptyTree.allocate.allocate).setNode 0 (Fin.last 2) false 3 (fin 0) (fin 1)) 3 0 k) 6 k (k + 1)

theorem build_heap {k leafSize : ℕ} (hk : 0 < k) (hleaf : toInt32 leafSize = k) :
    build 1 (cube 0 0) (heap (k - 1)) leafSize =
      some (.ok ⟨heapTree k, (List.range (k + 1)).map id, cube 0 1⟩) := by
  have hheap : cube 0 0 :: heap (k - 1) = heap k := by
    obtain ⟨j, rfl⟩ := Nat.exists_eq_add_of_lt hk
    rfl
  have hlen : (heap k).length = k + 1 := by unfold heap; rw [List.length_append, List.length_replicate]; rfl
  unfold build
  simp only [hheap, hlen, merge_heap, hleaf]
  unfold enter
  rw [if_neg (by simp [MAX_STACK_SIZE])]
  unfold subdivideLoop
  simp only
  rw [if_neg (by simp [cube]), if_neg (by simp [cube])]
  have haxis : primaryAxis (fun i => (cube 0 1).hi i - (cube 0 1).lo i) = 2 := by decide +kernel
  have hsplit : (1 / 2 * ((cube 0 1).lo 2 + (cube 0 1).hi 2) : ℚ) = 1 / 2 := by decide +kernel
  rw [haxis, hsplit, Nat.sub_zero, partition_heap_all hk]
  simp only
  rw [if_neg (by simp [cube]), if_neg (by omega), if_neg (by omega)]
  have hlast : 0 < k + 1 - k := by omega
  have hone : ((k + 1 - k : ℕ) : ℤ) ≤ k := by omega
  simp only [callIf, Loop.commit, Loop.leftChild, Loop.rightChild, Loop.childIndex, Loop.childrenAllocated, enter,
    Nat.sub_zero, gt_iff_lt, hk, hlast, decide_true, if_true, le_refl, true_or, hone]
  rfl

theorem heap_missed {k : ℕ} (hk : k = 2 ^ 29) :
    (⟨heapTree k, (List.range (k + 1)).map id, cube 0 1⟩ : BIH).intersectPoint 3 1 =
      some (some ⟨6, [], ⊥, ⊥, ⊥, [0, 6], []⟩) := by
  have hin : (cube 0 1).contains 1 = true := by decide +kernel
  have hodd : axisOf (nodeWord 3 false (2 ^ 29)) = 3 ∧ isBVH2 (nodeWord 3 false (2 ^ 29)) = true := by decide
  generalize hbih : (⟨heapTree k, (List.range (k + 1)).map id, cube 0 1⟩ : BIH) = bih
  have hroot : bih.view 0 = some (.inner 2 (fin 0) (fin 1) 3) := by
    rw [← hbih]
    rfl
  have hlast : bih.view 6 = some .odd := by
    have hword : bih.tree.get? 6 = some (.bits (nodeWord 3 false (2 ^ 29))) := by
      rw [← hbih, ← hk]
      rfl
    unfold BIH.view
    rw [hword]
    simp only
    rw [if_neg (by rw [hodd.1]; decide), if_pos hodd.2]
  have hbounds : bih.bounds = cube 0 1 := by rw [← hbih]
  have hfirst : bih.pointStep 1 ⟨0, [], ⊥, ⊥, ⊥, [0], []⟩ = .at ⟨6, [], ⊥, ⊥, ⊥, [0], []⟩ := by
    unfold pointStep
    rw [hroot]
    simp
  have hsecond : bih.pointStep 1 ⟨6, [], ⊥, ⊥, ⊥, [0, 6], []⟩ = .done ⟨6, [], ⊥, ⊥, ⊥, [0, 6], []⟩ := by
    unfold pointStep
    rw [hlast]
  unfold BIH.intersectPoint
  rw [hbounds, if_pos hin, run_succ]
  show resume _ _ (bih.pointStep 1 ⟨0, [], ⊥, ⊥, ⊥, [0], []⟩) = _
  rw [hfirst]
  show run _ _ _ = _
  rw [run_succ]
  show resume _ _ (bih.pointStep 1 ⟨6, [], ⊥, ⊥, ⊥, [0, 6], []⟩) = _
  rw [hsecond]
  rfl

theorem boxes_missed :
    (Missed (build 3 (cube 0 1) [] 1) (fun bih => bih.intersectRay 4 leaving quiet ⊤ false) 0 ∧
      Hierarchy.Meets leaving (cube 0 1) 0) ∧
    (Missed (build 4 (cube 0 1) [cube 2 3] 1) (fun bih => bih.intersectRay 9 slow quiet ⊤ false) 1 ∧
      Hierarchy.Meets slow (cube 2 3) 3500000) ∧
    (Missed (build 1 (cube 0 0) (heap (2 ^ 29 - 1)) (2 ^ 29)) (fun bih => bih.intersectPoint 3 1) (2 ^ 29) ∧
      (bound (heap (2 ^ 29)) (2 ^ 29)).contains 1 = true) := by
  refine ⟨⟨missed_of_eq (by decide +kernel), ?_⟩, ⟨missed_of_eq (by decide +kernel), ?_⟩, ?_⟩
  · exact (by decide +kernel : ∀ i, (cube 0 1).lo i ≤ leaving.org i + 0 * leaving.dir i ∧
      leaving.org i + 0 * leaving.dir i ≤ (cube 0 1).hi i)
  · exact fun axis => (by decide +kernel : (2 : ℚ) ≤ -1 + 3500000 * (1 / 1000000) ∧ (-1 : ℚ) + 3500000 * (1 / 1000000) ≤ 3)
  · generalize hk : 2 ^ 29 = k
    have hpos : 0 < k := by omega
    have hleaf : toInt32 k = k := toInt32_of_range (by omega) (by omega)
    refine ⟨⟨_, _, build_heap hpos hleaf, heap_missed hk.symm, List.not_mem_nil⟩, ?_⟩
    rw [bound_heap_last]
    decide +kernel

end HysteriaCore.Collision

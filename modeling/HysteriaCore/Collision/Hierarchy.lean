import HysteriaCore.Collision.BIH

/-!
# The hierarchy as a tree

What the words of the tree stand for: clip planes that bound the objects below them, and the objects
that a walk comes to when it follows them by recursion. A child behind an infinite plane holds nothing.
-/

namespace HysteriaCore.Collision
open Lib Lib.Extended BIH

inductive Hierarchy where
  | leaf (objects : List ℕ)
  | split (axis : Fin 3) (clipL clipR : Extended ℚ) (left right : Hierarchy)
  | cut (axis : Fin 3) (lo hi : Extended ℚ) (child : Hierarchy)

namespace Hierarchy

def objects : Hierarchy → List ℕ
  | leaf objects => objects
  | split _ _ _ left right => left.objects ++ right.objects
  | cut _ _ _ child => child.objects

def Bounds (box : ℕ → AABox) : Hierarchy → Prop
  | leaf _ => True
  | split axis clipL clipR left right =>
    (∀ i ∈ left.objects, fin ((box i).hi axis) ≤ clipL) ∧ (∀ i ∈ right.objects, clipR ≤ fin ((box i).lo axis)) ∧
      left.Bounds box ∧ right.Bounds box
  | cut axis lo hi child =>
    (∀ i ∈ child.objects, lo ≤ fin ((box i).lo axis) ∧ fin ((box i).hi axis) ≤ hi) ∧ child.Bounds box

def branches : Hierarchy → ℕ
  | leaf _ => 0
  | split _ clipL clipR left right =>
    max left.branches right.branches + (if clipL = ⊥ ∨ clipR = ⊤ then 0 else 1)
  | cut _ _ _ child => child.branches

/-! ### Points -/

def pointObjects (p : Vector3) : Hierarchy → List ℕ
  | leaf objects => objects
  | split axis clipL clipR left right =>
    if clipL < fin (p axis) ∧ fin (p axis) < clipR then []
    else if clipL < fin (p axis) then right.pointObjects p
    else if fin (p axis) < clipR then left.pointObjects p
    else left.pointObjects p ++ right.pointObjects p
  | cut axis lo hi child => if fin (p axis) < lo ∨ hi < fin (p axis) then [] else child.pointObjects p

theorem pointObjects_sublist (p : Vector3) (h : Hierarchy) : (h.pointObjects p).Sublist h.objects := by
  induction h with
  | leaf objects => exact List.Sublist.refl _
  | split axis clipL clipR left right ihl ihr =>
    unfold pointObjects objects
    split
    · exact List.nil_sublist _
    split
    · exact ihr.trans (List.sublist_append_right _ _)
    split
    · exact ihl.trans (List.sublist_append_left _ _)
    · exact ihl.append ihr
  | cut axis lo hi child ih =>
    unfold pointObjects objects
    split
    · exact List.nil_sublist _
    · exact ih

theorem contains_iff (b : AABox) (p : Vector3) : b.contains p = true ↔ ∀ i, b.lo i ≤ p i ∧ p i ≤ b.hi i :=
  decide_eq_true_iff

variable {i : ℕ}

theorem mem_pointObjects {box : ℕ → AABox} {p : Vector3} (hp : (box i).contains p = true) {h : Hierarchy}
    (hbounds : h.Bounds box) (hi : i ∈ h.objects) : i ∈ h.pointObjects p := by
  rw [contains_iff] at hp
  induction h with
  | leaf objects => exact hi
  | split axis clipL clipR left right ihl ihr =>
    obtain ⟨hleft, hright, hboundsl, hboundsr⟩ := hbounds
    have hl : i ∈ left.objects → ¬ clipL < fin (p axis) := by
      intro hmem hlt
      exact absurd (fin_le_fin.mpr (hp axis).2) (not_le_of_gt ((hleft i hmem).trans_lt hlt))
    have hr : i ∈ right.objects → ¬ fin (p axis) < clipR := by
      intro hmem hlt
      exact absurd (fin_le_fin.mpr (hp axis).1) (not_le_of_gt (hlt.trans_le (hright i hmem)))
    unfold pointObjects
    rcases List.mem_append.mp hi with hmem | hmem
    · rw [if_neg fun hboth => hl hmem hboth.1, if_neg (hl hmem)]
      split
      · exact ihl hboundsl hmem
      · exact List.mem_append_left _ (ihl hboundsl hmem)
    · rw [if_neg fun hboth => hr hmem hboth.2]
      split
      · exact ihr hboundsr hmem
      · rw [if_neg (hr hmem)]
        exact List.mem_append_right _ (ihr hboundsr hmem)
  | cut axis lo hi' child ih =>
    obtain ⟨hplanes, hboundsc⟩ := hbounds
    obtain ⟨hlo, hhi⟩ := hplanes i hi
    unfold pointObjects
    rw [if_neg]
    · exact ih hboundsc hi
    · rintro (hlt | hlt)
      · exact absurd (fin_le_fin.mpr (hp axis).1) (not_le_of_gt (hlt.trans_le hlo))
      · exact absurd (fin_le_fin.mpr (hp axis).2) (not_le_of_gt (hhi.trans_lt hlt))

/-! ### Rays -/

def Meets (r : Ray) (b : AABox) (t : ℚ) : Prop := ∀ i, b.lo i ≤ r.org i + t * r.dir i ∧ r.org i + t * r.dir i ≤ b.hi i

/-- Two children, the first of which the ray leaves at `tf`, and the other it enters at `tb`. -/
def pass (tf tb : Extended ℚ) (front back : Extended ℚ → Extended ℚ → List ℕ) (lo hi : Extended ℚ) : List ℕ :=
  if tf < lo ∧ hi < tb then []
  else if tf < lo then back (if lo ≤ tb then tb else lo) hi
  else if hi < tb then front lo (if tf ≤ hi then tf else hi)
  else front lo (if tf ≤ hi then tf else hi) ++ back (if lo ≤ tb then tb else lo) hi

def planeAt (r : Ray) (axis : Fin 3) (clip : Extended ℚ) : Extended ℚ := along (r.org axis) (r.invDir axis) clip

def rayObjects (r : Ray) : Hierarchy → Extended ℚ → Extended ℚ → List ℕ
  | leaf objects, _, _ => objects
  | split axis clipL clipR left right, lo, hi =>
    if r.dir axis < 0 then
      pass (planeAt r axis clipR) (planeAt r axis clipL) (right.rayObjects r) (left.rayObjects r) lo hi
    else pass (planeAt r axis clipL) (planeAt r axis clipR) (left.rayObjects r) (right.rayObjects r) lo hi
  | cut axis first last child, lo, hi =>
    let tf := planeAt r axis (if r.dir axis < 0 then last else first)
    let tb := planeAt r axis (if r.dir axis < 0 then first else last)
    if (if tb ≤ hi then tb else hi) < (if lo ≤ tf then tf else lo) then []
    else child.rayObjects r (if lo ≤ tf then tf else lo) (if tb ≤ hi then tb else hi)

section Walk
variable {r : Ray} {axis : Fin 3} {t : ℚ}

theorem planeAt_point (hdir : r.dir axis ≠ 0) (t : ℚ) :
    planeAt r axis (fin (r.org axis + t * r.dir axis)) = fin t := by
  unfold planeAt Ray.invDir
  rw [along_fin]
  congr 1
  rw [add_sub_cancel_left, mul_one_div, mul_div_cancel_right₀ t hdir]

theorem planeAt_mono (hpos : 0 < r.dir axis) {x y : Extended ℚ} (h : x ≤ y) : planeAt r axis x ≤ planeAt r axis y :=
  along_mono (by unfold Ray.invDir; exact one_div_pos.mpr hpos) h

theorem planeAt_anti (hneg : r.dir axis < 0) {x y : Extended ℚ} (h : x ≤ y) : planeAt r axis y ≤ planeAt r axis x :=
  along_anti (by unfold Ray.invDir; exact one_div_neg.mpr hneg) h

variable {front back : Extended ℚ → Extended ℚ → List ℕ} {tf tb lo hi : Extended ℚ}

theorem mem_pass_front
    (hlo : lo ≤ fin t) (hhi : fin t ≤ hi) (htf : fin t ≤ tf)
    (hfront : ∀ hi', fin t ≤ hi' → i ∈ front lo hi') : i ∈ pass tf tb front back lo hi := by
  have hnot : ¬ tf < lo := not_lt.mpr (hlo.trans htf)
  have hend : fin t ≤ if tf ≤ hi then tf else hi := by
    split
    · exact htf
    · exact hhi
  unfold pass
  rw [if_neg fun hboth => hnot hboth.1, if_neg hnot]
  split
  · exact hfront _ hend
  · exact List.mem_append_left _ (hfront _ hend)

theorem mem_pass_back
    (hlo : lo ≤ fin t) (hhi : fin t ≤ hi) (htb : tb ≤ fin t)
    (hback : ∀ lo', lo' ≤ fin t → i ∈ back lo' hi) : i ∈ pass tf tb front back lo hi := by
  have hnot : ¬ hi < tb := not_lt.mpr (htb.trans hhi)
  have hbegin : (if lo ≤ tb then tb else lo) ≤ fin t := by
    split
    · exact htb
    · exact hlo
  unfold pass
  rw [if_neg fun hboth => hnot hboth.2, if_neg hnot]
  split
  · exact hback _ hbegin
  · exact List.mem_append_right _ (hback _ hbegin)

theorem mem_rayObjects {box : ℕ → AABox} (hdir : ∀ axis, r.dir axis ≠ 0) (hmeets : Meets r (box i) t)
    {h : Hierarchy} (hbounds : h.Bounds box) (hi : i ∈ h.objects) :
    ∀ {lo hi : Extended ℚ}, lo ≤ fin t → fin t ≤ hi → i ∈ h.rayObjects r lo hi := by
  induction h with
  | leaf objects => exact fun _ _ => hi
  | split axis clipL clipR left right ihl ihr =>
    intro lo hi' hlo hhi
    obtain ⟨hleft, hright, hboundsl, hboundsr⟩ := hbounds
    unfold rayObjects
    rcases List.mem_append.mp hi with hmem | hmem
    · -- the plane of the left child is beyond the point
      have hplane : fin (r.org axis + t * r.dir axis) ≤ clipL :=
        (fin_le_fin.mpr (hmeets axis).2).trans (hleft i hmem)
      split
      · rename_i hneg
        have htb := planeAt_anti hneg hplane
        rw [planeAt_point (hdir axis)] at htb
        exact mem_pass_back hlo hhi htb fun lo' hlo' => ihl hboundsl hmem hlo' hhi
      · rename_i hneg
        have htf := planeAt_mono (lt_of_le_of_ne (not_lt.mp hneg) (hdir axis).symm) hplane
        rw [planeAt_point (hdir axis)] at htf
        exact mem_pass_front hlo hhi htf fun hi' hhi' => ihl hboundsl hmem hlo hhi'
    · have hplane : clipR ≤ fin (r.org axis + t * r.dir axis) :=
        (hright i hmem).trans (fin_le_fin.mpr (hmeets axis).1)
      split
      · rename_i hneg
        have htf := planeAt_anti hneg hplane
        rw [planeAt_point (hdir axis)] at htf
        exact mem_pass_front hlo hhi htf fun hi' hhi' => ihr hboundsr hmem hlo hhi'
      · rename_i hneg
        have htb := planeAt_mono (lt_of_le_of_ne (not_lt.mp hneg) (hdir axis).symm) hplane
        rw [planeAt_point (hdir axis)] at htb
        exact mem_pass_back hlo hhi htb fun lo' hlo' => ihr hboundsr hmem hlo' hhi
  | cut axis first last child ih =>
    intro lo hi' hlo hhi
    obtain ⟨hplanes, hboundsc⟩ := hbounds
    have hfirst : first ≤ fin (r.org axis + t * r.dir axis) :=
      (hplanes i hi).1.trans (fin_le_fin.mpr (hmeets axis).1)
    have hlast : fin (r.org axis + t * r.dir axis) ≤ last :=
      (fin_le_fin.mpr (hmeets axis).2).trans (hplanes i hi).2
    have hin : planeAt r axis (if r.dir axis < 0 then last else first) ≤ fin t ∧
        fin t ≤ planeAt r axis (if r.dir axis < 0 then first else last) := by
      rw [← planeAt_point (hdir axis) t]
      split
      · rename_i hneg
        exact ⟨planeAt_anti hneg hlast, planeAt_anti hneg hfirst⟩
      · rename_i hneg
        have hpos := lt_of_le_of_ne (not_lt.mp hneg) (hdir axis).symm
        exact ⟨planeAt_mono hpos hfirst, planeAt_mono hpos hlast⟩
    unfold rayObjects
    simp only
    generalize planeAt r axis (if r.dir axis < 0 then last else first) = tf at hin ⊢
    generalize planeAt r axis (if r.dir axis < 0 then first else last) = tb at hin ⊢
    have hbegin : (if lo ≤ tf then tf else lo) ≤ fin t := by
      split
      · exact hin.1
      · exact hlo
    have hend : fin t ≤ if tb ≤ hi' then tb else hi' := by
      split
      · exact hin.2
      · exact hhi
    rw [if_neg (not_lt.mpr (hbegin.trans hend))]
    exact ih hboundsc hi hbegin hend

end Walk

end Hierarchy

end HysteriaCore.Collision

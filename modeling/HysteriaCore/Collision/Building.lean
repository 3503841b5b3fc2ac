import HysteriaCore.Collision.Walking

/-!
# What the builder leaves behind

Each call of `subdivide` permutes its range of the objects, writes its own node and appends words, and what
it wrote stands for a hierarchy over its objects however the rest of the tree goes on.
-/

namespace HysteriaCore.Collision
open Lib Lib.Extended

def segment (indices : ℕ → ℕ) (left right : ℕ) : List ℕ := (List.range' left (right - left)).map indices

theorem mem_segment {indices : ℕ → ℕ} {left right obj : ℕ} :
    obj ∈ segment indices left right ↔ ∃ j, left ≤ j ∧ j < right ∧ indices j = obj := by
  unfold segment
  rw [List.mem_map]
  constructor
  · rintro ⟨j, hj, rfl⟩
    obtain ⟨hge, hlt⟩ := List.mem_range'_1.mp hj
    exact ⟨j, hge, by omega, rfl⟩
  · rintro ⟨j, hge, hlt, rfl⟩
    exact ⟨j, List.mem_range'_1.mpr ⟨hge, by omega⟩, rfl⟩

theorem segment_congr {f f' : ℕ → ℕ} {left right : ℕ} (h : ∀ j, left ≤ j → j < right → f' j = f j) :
    segment f' left right = segment f left right := by
  refine List.map_congr_left fun j hj => ?_
  obtain ⟨hge, hlt⟩ := List.mem_range'_1.mp hj
  exact h j hge (by omega)

theorem segment_append (f : ℕ → ℕ) {left mid right : ℕ} (hl : left ≤ mid) (hr : mid ≤ right) :
    segment f left mid ++ segment f mid right = segment f left right := by
  unfold segment
  rw [← List.map_append]
  have hmid : left + (mid - left) = mid := Nat.add_sub_cancel' hl
  have hlen : right - left = (mid - left) + (right - mid) := by omega
  rw [hlen, ← List.range'_append_1, hmid]

theorem segment_length (f : ℕ → ℕ) (left right : ℕ) : (segment f left right).length = right - left := by
  unfold segment
  rw [List.length_map, List.length_range']

theorem forall_of_perm {f f' : ℕ → ℕ} {left right : ℕ} (hperm : (segment f' left right).Perm (segment f left right))
    {P : ℕ → Prop} (h : ∀ j, left ≤ j → j < right → P (f j)) : ∀ j, left ≤ j → j < right → P (f' j) := by
  intro j hge hlt
  obtain ⟨i, hi, hi', heq⟩ := mem_segment.mp (hperm.mem_iff.mp (mem_segment.mpr ⟨j, hge, hlt, rfl⟩))
  rw [← heq]
  exact h i hi hi'

/-! ### The partition -/

section Partition
variable {primBound : List AABox} {axis : Fin 3} {split : ℚ}

def center (b : AABox) (axis : Fin 3) : ℚ := (b.lo axis + b.hi axis) * (1 / 2)

/-- What the partition of a range comes to: the left part ends at `m`. -/
structure Partitioned (primBound : List AABox) (axis : Fin 3) (split : ℚ) (left right : ℕ) (s : Part) (m : ℕ)
    (s' : Part) : Prop where
  le : left ≤ m ∧ m ≤ right
  outside : ∀ j, j < left ∨ right ≤ j → s'.indices j = s.indices j
  perm : (segment s'.indices left right).Perm (segment s.indices left right)
  isLeft : ∀ j, left ≤ j → j < m → center (bound primBound (s'.indices j)) axis ≤ split ∧
    fin ((bound primBound (s'.indices j)).hi axis) ≤ s'.clipL
  isRight : ∀ j, m ≤ j → j < right → split < center (bound primBound (s'.indices j)) axis ∧
    s'.clipR ≤ fin ((bound primBound (s'.indices j)).lo axis)
  node : ∀ j, left ≤ j → j < right → s'.nodeL ≤ fin ((bound primBound (s'.indices j)).lo axis) ∧
    fin ((bound primBound (s'.indices j)).hi axis) ≤ s'.nodeR
  clips : s.clipL ≤ s'.clipL ∧ s'.clipR ≤ s.clipR ∧ s'.nodeL ≤ s.nodeL ∧ s.nodeR ≤ s'.nodeR

theorem segment_succ (f : ℕ → ℕ) (i k : ℕ) : segment f i (i + (k + 1)) = f i :: segment f (i + 1) (i + 1 + k) := by
  unfold segment
  rw [Nat.add_sub_cancel_left, Nat.add_sub_cancel_left, List.range'_succ, List.map_cons]

theorem segment_last (f : ℕ → ℕ) (i k : ℕ) : segment f i (i + (k + 1)) = segment f i (i + k) ++ [f (i + k)] := by
  unfold segment
  rw [Nat.add_sub_cancel_left, Nat.add_sub_cancel_left, List.range'_concat, List.map_append, Nat.one_mul]
  rfl

theorem segment_swap (f : ℕ → ℕ) (i k : ℕ) :
    (segment (Function.update (Function.update f i (f (i + k))) (i + k) (f i)) i (i + (k + 1))).Perm
      (segment f i (i + (k + 1))) := by
  rw [segment_last, Function.update_self]
  cases k with
  | zero => simp [segment]
  | succ k =>
    rw [segment_succ _ i k, segment_succ f i (k + 1), Function.update_of_ne (by omega), Function.update_self]
    have hrest : segment (Function.update (Function.update f i (f (i + (k + 1)))) (i + (k + 1)) (f i)) (i + 1) (i + 1 + k) =
        segment f (i + 1) (i + 1 + k) := by
      refine segment_congr fun j hge hlt => ?_
      rw [Function.update_of_ne (by omega), Function.update_of_ne (by omega)]
    have hlast : i + 1 + (k + 1) = i + 1 + k + 1 := rfl
    rw [hrest, segment_last f (i + 1) k, Nat.add_right_comm i 1 k, List.cons_append, Nat.add_assoc i k 1]
    exact (List.perm_append_comm.cons _).trans ((List.Perm.swap _ _ _).trans
      ((List.perm_append_singleton _ _).symm.cons _))

theorem partitioned (primBound : List AABox) (axis : Fin 3) (split : ℚ) (k : ℕ) : ∀ (i : ℕ) (s : Part),
    Partitioned primBound axis split i (i + k) s (partition primBound axis split k i s).1
      (partition primBound axis split k i s).2 := by
  induction k with
  | zero =>
    intro i s
    have hnone : ∀ j, i ≤ j → j < i → False := fun j hge hlt => absurd hlt hge.not_gt
    exact ⟨⟨le_rfl, le_rfl⟩, fun _ _ => rfl, List.Perm.refl _, fun j hge hlt => (hnone j hge hlt).elim,
      fun j hge hlt => (hnone j hge hlt).elim, fun j hge hlt => (hnone j hge hlt).elim, le_rfl, le_rfl, le_rfl, le_rfl⟩
  | succ k ih =>
    intro i s
    unfold partition
    simp only
    split
    · rename_i hcenter
      generalize hs : ({ s with
        clipL := if s.clipL < fin ((bound primBound (s.indices i)).hi axis) then
          fin ((bound primBound (s.indices i)).hi axis) else s.clipL
        nodeL := min s.nodeL (fin ((bound primBound (s.indices i)).lo axis))
        nodeR := max s.nodeR (fin ((bound primBound (s.indices i)).hi axis)) } : Part) = s1
      obtain ⟨hle, houtside, hperm, hleft, hright, hnode, hclips⟩ := ih (i + 1) s1
      have hend : i + 1 + k = i + (k + 1) := by omega
      rw [hend] at hle houtside hright hnode
      have hindices : s1.indices = s.indices := by rw [← hs]
      have hfirst := (houtside i (.inl (Nat.lt_succ_self i))).trans (congrFun hindices i)
      have hclipL : fin ((bound primBound (s.indices i)).hi axis) ≤ s1.clipL ∧ s.clipL ≤ s1.clipL := by
        simp only [← hs, ← max_def_lt]
        exact ⟨le_max_right _ _, le_max_left _ _⟩
      have hnodes : s1.nodeL ≤ fin ((bound primBound (s.indices i)).lo axis) ∧ s1.nodeL ≤ s.nodeL ∧
          fin ((bound primBound (s.indices i)).hi axis) ≤ s1.nodeR ∧ s.nodeR ≤ s1.nodeR := by
        rw [← hs]
        exact ⟨min_le_right _ _, min_le_left _ _, le_max_right _ _, le_max_left _ _⟩
      have hclipR : s1.clipR = s.clipR := by rw [← hs]
      refine ⟨⟨by omega, hle.2⟩, fun j hj => ?_, ?_, fun j hge hlt => ?_, hright, fun j hge hlt => ?_,
        hclipL.2.trans hclips.1, hclipR ▸ hclips.2.1, hclips.2.2.1.trans hnodes.2.1, hnodes.2.2.2.trans hclips.2.2.2⟩
      · rw [houtside j (by omega), hindices]
      · rw [segment_succ, segment_succ, hfirst, ← hindices]
        exact hperm.cons _
      · rcases Nat.eq_or_lt_of_le hge with rfl | hgt
        · rw [hfirst]
          exact ⟨hcenter, hclipL.1.trans hclips.1⟩
        · exact hleft j hgt hlt
      · rcases Nat.eq_or_lt_of_le hge with rfl | hgt
        · rw [hfirst]
          exact ⟨hclips.2.2.1.trans hnodes.1, hnodes.2.2.1.trans hclips.2.2.2⟩
        · exact hnode j hgt hlt
    · rename_i hcenter
      generalize hs : ({
        indices := Function.update (Function.update s.indices i (s.indices (i + k))) (i + k) (s.indices i)
        clipL := s.clipL
        clipR := if fin ((bound primBound (s.indices i)).lo axis) < s.clipR then
          fin ((bound primBound (s.indices i)).lo axis) else s.clipR
        nodeL := min s.nodeL (fin ((bound primBound (s.indices i)).lo axis))
        nodeR := max s.nodeR (fin ((bound primBound (s.indices i)).hi axis)) } : Part) = s1
      obtain ⟨hle, houtside, hperm, hleft, hright, hnode, hclips⟩ := ih i s1
      have hindices : s1.indices =
          Function.update (Function.update s.indices i (s.indices (i + k))) (i + k) (s.indices i) := by rw [← hs]
      have hlast : (partition primBound axis split k i s1).2.indices (i + k) = s.indices i := by
        rw [houtside _ (.inr le_rfl), hindices, Function.update_self]
      have hclipR : s1.clipR ≤ fin ((bound primBound (s.indices i)).lo axis) ∧ s1.clipR ≤ s.clipR := by
        simp only [← hs, ← min_def_lt]
        exact ⟨min_le_left _ _, min_le_right _ _⟩
      have hnodes : s1.nodeL ≤ fin ((bound primBound (s.indices i)).lo axis) ∧ s1.nodeL ≤ s.nodeL ∧
          fin ((bound primBound (s.indices i)).hi axis) ≤ s1.nodeR ∧ s.nodeR ≤ s1.nodeR := by
        rw [← hs]
        exact ⟨min_le_right _ _, min_le_left _ _, le_max_right _ _, le_max_left _ _⟩
      have hclipL : s1.clipL = s.clipL := by rw [← hs]
      refine ⟨⟨hle.1, by omega⟩, fun j hj => ?_, ?_, hleft, fun j hge hlt => ?_, fun j hge hlt => ?_,
        hclipL ▸ hclips.1, hclips.2.1.trans hclipR.2, hclips.2.2.1.trans hnodes.2.1, hnodes.2.2.2.trans hclips.2.2.2⟩
      · rw [houtside j (by omega), hindices, Function.update_of_ne (by omega), Function.update_of_ne (by omega)]
      · refine List.Perm.trans ?_ (segment_swap s.indices i k)
        rw [segment_last, segment_last _ i k, hlast, Function.update_self, ← hindices]
        exact hperm.append_right _
      · rcases Nat.lt_or_ge j (i + k) with hlt' | hge'
        · exact hright j hge hlt'
        · have heq : j = i + k := by omega
          rw [heq, hlast]
          exact ⟨not_le.mp hcenter, hclips.2.1.trans hclipR.1⟩
      · rcases Nat.lt_or_ge j (i + k) with hlt' | hge'
        · exact hnode j hge hlt'
        · have heq : j = i + k := by omega
          rw [heq, hlast]
          exact ⟨hclips.2.2.1.trans hnodes.1, hnodes.2.2.1.trans hclips.2.2.2⟩

end Partition

/-! ### What a call leaves behind -/

def Agree (tree2 tree : Words) (node size : ℕ) : Prop :=
  ∀ i, (node ≤ i ∧ i < node + 3) ∨ (size ≤ i ∧ i < tree.size) → tree2.word i = tree.word i

structure Grown (primBound : List AABox) (c : Scope) (branches : ℕ) (tree : Words) (indices : ℕ → ℕ) : Prop where
  size : c.tempTree.size ≤ tree.size
  words : ∀ i < c.tempTree.size, i < c.nodeIndex ∨ c.nodeIndex + 3 ≤ i → tree.word i = c.tempTree.word i
  outside : ∀ j, j < c.left ∨ c.right ≤ j → indices j = c.indices j
  perm : (segment indices c.left c.right).Perm (segment c.indices c.left c.right)
  stands : ∃ h : Hierarchy, h.objects = segment indices c.left c.right ∧ h.Bounds (bound primBound) ∧
    h.branches ≤ branches ∧ ∀ {tree2 : Words} {indices2 : ℕ → ℕ} {n : ℕ}, tree.size ≤ tree2.size → c.right ≤ n →
      Agree tree2 tree c.nodeIndex c.tempTree.size →
      (∀ j, c.left ≤ j → j < c.right → indices2 j = indices j) → Stored tree2 n indices2 h c.nodeIndex

section Words
variable (w : Words)

@[simp] theorem allocate_size : w.allocate.size = w.size + 3 := rfl

theorem allocate_word {i : ℕ} (hi : i < w.size) : w.allocate.word i = w.word i := by
  unfold Words.allocate Words.push_back
  simp only
  rw [Function.update_of_ne (by omega), Function.update_of_ne (by omega), Function.update_of_ne (by omega)]

@[simp] theorem setNode_size (node : ℕ) (axis : Fin 3) (bvh2 : Bool) (index : ℕ) (lo hi : Extended ℚ) :
    (w.setNode node axis bvh2 index lo hi).size = w.size := rfl

theorem setNode_word {node : ℕ} (axis : Fin 3) (bvh2 : Bool) (index : ℕ) (lo hi : Extended ℚ) {i : ℕ}
    (hout : i < node ∨ node + 3 ≤ i) : (w.setNode node axis bvh2 index lo hi).word i = w.word i := by
  unfold Words.setNode Words.set
  simp only
  rw [Function.update_of_ne (by omega), Function.update_of_ne (by omega), Function.update_of_ne (by omega)]

theorem setNode_words (node : ℕ) (axis : Fin 3) (bvh2 : Bool) (index : ℕ) (lo hi : Extended ℚ) :
    (w.setNode node axis bvh2 index lo hi).word node = .bits (nodeWord axis bvh2 index) ∧
      (w.setNode node axis bvh2 index lo hi).word (node + 1) = .float lo ∧
      (w.setNode node axis bvh2 index lo hi).word (node + 2) = .float hi := by
  unfold Words.setNode Words.set
  simp only
  refine ⟨?_, ?_, Function.update_self _ _ _⟩
  · rw [Function.update_of_ne (by omega), Function.update_of_ne (by omega), Function.update_self]
  · rw [Function.update_of_ne (by omega), Function.update_self]

end Words

section Grown
variable {primBound : List AABox} {b : ℕ} {tree : Words} {indices : ℕ → ℕ}

theorem grown_leaf {c : Scope} (hlt : c.left < c.right) (hroom : c.nodeIndex + 3 ≤ c.tempTree.size) :
    Grown primBound c b (createNode c.tempTree c.nodeIndex c.left c.right) c.indices where
  size := le_rfl
  words i _ hout := by
    unfold createNode Words.set
    simp only
    rw [Function.update_of_ne (by omega), Function.update_of_ne (by omega)]
  outside _ _ := rfl
  perm := List.Perm.refl _
  stands := by
    refine ⟨.leaf (segment c.indices c.left c.right), rfl, trivial, Nat.zero_le _, ?_⟩
    intro tree2 indices2 n hsize hright hwords hsame
    have hlen := segment_length c.indices c.left c.right
    refine ⟨lt_of_lt_of_le (by omega : c.nodeIndex + 2 < c.tempTree.size) hsize, c.left, ?_, ?_, ?_, by omega,
      List.ne_nil_of_length_pos (by omega)⟩
    · rw [hwords _ (.inl ⟨le_rfl, by omega⟩)]
      unfold createNode Words.set
      simp only
      rw [Function.update_of_ne (by omega), Function.update_self]
    · rw [hwords _ (.inl ⟨by omega, by omega⟩), hlen]
      exact Function.update_self _ _ _
    · rw [hlen]
      exact (segment_congr hsame).symm

theorem Grown.of_perm {c c' : Scope} (h : Grown primBound c' b tree indices) (hleft : c'.left = c.left)
    (hright : c'.right = c.right) (htree : c'.tempTree = c.tempTree) (hnode : c'.nodeIndex = c.nodeIndex)
    (houtside : ∀ j, j < c.left ∨ c.right ≤ j → c'.indices j = c.indices j)
    (hperm : (segment c'.indices c.left c.right).Perm (segment c.indices c.left c.right)) :
    Grown primBound c b tree indices := by
  obtain ⟨hsize, hwords, hout, hsegment, hstands⟩ := h
  rw [htree] at hsize
  rw [htree, hnode] at hwords
  rw [hleft, hright] at hout hsegment
  rw [hleft, hright, hnode, htree] at hstands
  exact ⟨hsize, hwords, fun j hj => (hout j hj).trans (houtside j hj), hsegment.trans hperm, hstands⟩

theorem Grown.mono {c : Scope} {b' : ℕ} (h : Grown primBound c b tree indices) (hle : b ≤ b') :
    Grown primBound c b' tree indices := by
  obtain ⟨hsize, hwords, hout, hperm, hd, hobjects, hbounds, hbranches, hstored⟩ := h
  exact ⟨hsize, hwords, hout, hperm, hd, hobjects, hbounds, hbranches.trans hle, hstored⟩

variable {axis : Fin 3}

theorem Grown.wrap {c c' : Scope} {bvh2 : Bool} {index : ℕ} {lo hi : Extended ℚ}
    (h : Grown primBound c' b tree indices) (hroom : c.nodeIndex + 3 ≤ c.tempTree.size) (hleft : c'.left = c.left)
    (hright : c'.right = c.right) (hnode : c'.nodeIndex = c.tempTree.size)
    (htree : c'.tempTree = c.tempTree.allocate.setNode c.nodeIndex axis bvh2 index lo hi)
    (hindices : c'.indices = c.indices) (wrapped : Hierarchy → Hierarchy)
    (hobjects : ∀ h, (wrapped h).objects = h.objects) (hbranches : ∀ h, (wrapped h).branches = h.branches)
    (hbounds : ∀ h : Hierarchy, h.Bounds (bound primBound) → (∀ obj ∈ h.objects, obj ∈ segment c.indices c.left c.right) →
      (wrapped h).Bounds (bound primBound))
    (hstored : ∀ (h : Hierarchy) (tree2 : Words) (indices2 : ℕ → ℕ) (n : ℕ), c.tempTree.size < tree2.size →
      tree2.word c.nodeIndex = .bits (nodeWord axis bvh2 index) → tree2.word (c.nodeIndex + 1) = .float lo →
      tree2.word (c.nodeIndex + 2) = .float hi → Stored tree2 n indices2 h c.tempTree.size →
      Stored tree2 n indices2 (wrapped h) c.nodeIndex) :
    Grown primBound c b tree indices := by
  obtain ⟨hsize, hwords, hout, hperm, hd, hdobjects, hdbounds, hdbranches, hdstored⟩ := h
  rw [htree, setNode_size, allocate_size] at hsize
  rw [htree, setNode_size, allocate_size, hnode] at hwords
  rw [hleft, hright, hindices] at hout hperm
  rw [hleft, hright] at hdobjects hdstored
  rw [hnode, htree, setNode_size, allocate_size] at hdstored
  -- the node itself lies before the words of the child
  have hown : ∀ i, c.nodeIndex ≤ i → i < c.nodeIndex + 3 →
      tree.word i = (c.tempTree.allocate.setNode c.nodeIndex axis bvh2 index lo hi).word i := by
    intro i _ hlt
    exact hwords i (by omega) (.inl (by omega))
  refine ⟨by omega, fun i hi hne => ?_, hout, hperm, wrapped hd, (hobjects hd).trans hdobjects,
    hbounds hd hdbounds ?_, (hbranches hd).trans_le hdbranches, ?_⟩
  · rw [hwords i (by omega) (.inl hi), setNode_word _ _ _ _ _ _ hne, allocate_word _ hi]
  · intro obj hobj
    rw [hdobjects] at hobj
    exact hperm.mem_iff.mp hobj
  · intro tree2 indices2 n hsize2 hn hagree hsame
    obtain ⟨hfirst, hlo, hhi⟩ := setNode_words c.tempTree.allocate c.nodeIndex axis bvh2 index lo hi
    have hnode2 : ∀ i, c.nodeIndex ≤ i → i < c.nodeIndex + 3 →
        tree2.word i = (c.tempTree.allocate.setNode c.nodeIndex axis bvh2 index lo hi).word i :=
      fun i hge hlt => (hagree i (.inl ⟨hge, hlt⟩)).trans (hown i hge hlt)
    refine hstored hd tree2 indices2 n (by omega) ?_ ?_ ?_ (hdstored hsize2 hn ?_ hsame)
    · rw [hnode2 _ le_rfl (by omega), hfirst]
    · rw [hnode2 _ (by omega) (by omega), hlo]
    · rw [hnode2 _ (by omega) (by omega), hhi]
    · intro i hi
      exact hagree i (.inr (by omega))

abbrev InRange (c : Scope) (P : ℕ → Prop) : Prop := ∀ j, c.left ≤ j → j < c.right → P (c.indices j)

theorem grown_cut {s : Loop} {part : Part} (hroom : s.nodeIndex + 3 ≤ s.tempTree.size)
    (houtside : ∀ j, j < s.left ∨ s.right ≤ j → part.indices j = s.indices j)
    (hperm : (segment part.indices s.left s.right).Perm (segment s.indices s.left s.right))
    (hnode : ∀ j, s.left ≤ j → j < s.right → part.nodeL ≤ fin ((bound primBound (part.indices j)).lo axis) ∧
      fin ((bound primBound (part.indices j)).hi axis) ≤ part.nodeR)
    (h : Grown primBound (s.cut axis part) b tree indices) : Grown primBound s.toScope b tree indices := by
  have hwrapped : Grown primBound { s.toScope with indices := part.indices } b tree indices := by
    refine h.wrap hroom rfl rfl rfl rfl rfl (.cut axis part.nodeL part.nodeR) (fun _ => rfl) (fun _ => rfl) ?_ ?_
    · intro child hbounds hmem
      refine ⟨fun obj hobj => ?_, hbounds⟩
      obtain ⟨j, hge, hlt, rfl⟩ := mem_segment.mp (hmem obj hobj)
      exact hnode j hge hlt
    · intro child tree2 indices2 n hsize hword hlo hhi hstored
      have hsize' : s.tempTree.size < tree2.size := hsize
      exact ⟨show s.nodeIndex + 2 < tree2.size by omega, _, hword, hlo, hhi, hsize, hstored⟩
  exact hwrapped.of_perm rfl rfl rfl rfl houtside hperm

def Clipped (box : ℕ → AABox) (axis : Fin 3) (clip : Extended ℚ) (wasLeft : Bool) (obj : ℕ) : Prop :=
  if wasLeft then fin ((box obj).hi axis) ≤ clip else clip ≤ fin ((box obj).lo axis)

theorem grown_commit {s : Loop} (hroom : s.nodeIndex + 3 ≤ s.tempTree.size)
    (hclip : ∀ clip, s.prevClip = some clip → ∃ axis, s.axis = some axis ∧
      InRange s.toScope (Clipped (bound primBound) axis clip s.wasLeft))
    (h : Grown primBound s.commit.toScope b tree indices) : Grown primBound s.toScope b tree indices := by
  unfold Loop.commit at h
  cases hprev : s.prevClip with
  | none =>
    rw [hprev] at h
    cases haxis : s.axis <;> rw [haxis] at h <;> exact h
  | some clip =>
    obtain ⟨axis, haxis, hrange⟩ := hclip clip hprev
    rw [hprev, haxis] at h
    have hclipped : ∀ h : Hierarchy, (∀ obj ∈ h.objects, obj ∈ segment s.indices s.left s.right) →
        ∀ obj ∈ h.objects, Clipped (bound primBound) axis clip s.wasLeft obj := by
      intro h hmem obj hobj
      obtain ⟨j, hge, hlt, rfl⟩ := mem_segment.mp (hmem obj hobj)
      exact hrange j hge hlt
    cases hwas : s.wasLeft with
    | true =>
      rw [hwas] at h hclipped
      refine h.wrap hroom rfl rfl rfl rfl rfl (fun child => .split axis clip ⊤ child (.leaf [])) ?_ ?_ ?_ ?_
      · exact fun child => List.append_nil _
      · intro child
        show max child.branches 0 + (if clip = ⊥ ∨ (⊤ : Extended ℚ) = ⊤ then 0 else 1) = child.branches
        rw [if_pos (.inr rfl), Nat.max_zero, Nat.add_zero]
      · exact fun child hbounds hmem => ⟨hclipped child hmem, fun _ hnone => absurd hnone List.not_mem_nil, hbounds, trivial⟩
      · intro child tree2 indices2 n hsize hword hlo hhi hstored
        exact ⟨by omega, _, hword, hlo, hhi, hsize, fun _ => hstored, fun hne => absurd rfl hne⟩
    | false =>
      rw [hwas] at h hclipped
      refine h.wrap hroom rfl rfl rfl rfl rfl (fun child => .split axis ⊥ clip (.leaf []) child) ?_ ?_ ?_ ?_
      · exact fun child => List.nil_append _
      · intro child
        show max 0 child.branches + (if (⊥ : Extended ℚ) = ⊥ ∨ clip = ⊤ then 0 else 1) = child.branches
        rw [if_pos (.inl rfl), Nat.zero_max, Nat.add_zero]
      · exact fun child hbounds hmem => ⟨fun _ hnone => absurd hnone List.not_mem_nil, hclipped child hmem, trivial, hbounds⟩
      · intro child tree2 indices2 n hsize hword hlo hhi hstored
        have hoff : s.tempTree.size - 3 + 3 = s.tempTree.size := by omega
        exact ⟨by omega, _, hword, hlo, hhi, by omega, fun hne => absurd rfl hne, fun _ => hoff.symm ▸ hstored⟩

theorem grown_divide {s : Loop} {split : ℚ} {m : ℕ} {part : Part} {bl br : ℕ} {tree1 : Words}
    {indices1 : ℕ → ℕ} (hroom : s.nodeIndex + 3 ≤ s.tempTree.size) (hlm : s.left < m) (hmr : m < s.right)
    (hpart : Partitioned primBound axis split s.left s.right ⟨s.indices, ⊥, ⊤, ⊤, ⊥⟩ m part)
    (hl : Grown primBound (s.leftChild axis split m part) bl tree1 indices1)
    (hr : Grown primBound (s.rightChild axis split m part tree1 indices1) br tree indices) :
    Grown primBound s.toScope (max bl br + 1) tree indices := by
  have hindex : s.childIndex m = s.tempTree.size := if_pos (by omega)
  have hallocated : s.childrenAllocated m = s.tempTree.allocate.allocate := by
    unfold Loop.childrenAllocated
    rw [if_pos (by omega), if_pos (by omega)]
  obtain ⟨hsizel, hwordsl, houtl, hperml, hdl, hobjectsl, hboundsl, hbranchesl, hstoredl⟩ := hl
  obtain ⟨hsizer, hwordsr, houtr, hpermr, hdr, hobjectsr, hboundsr, hbranchesr, hstoredr⟩ := hr
  simp only [Loop.leftChild, Loop.rightChild, hindex, hallocated, setNode_size, allocate_size] at *
  obtain ⟨hle, houtside, hperm, hleft, hright, -, -⟩ := hpart
  simp only at houtside hperm
  -- each half keeps what the other one has
  have hsamel : ∀ j, s.left ≤ j → j < m → indices j = indices1 j := fun j _ hlt => houtr j (.inl hlt)
  have hsamer : ∀ j, m ≤ j → j < s.right → indices1 j = part.indices j := fun j hge _ => houtl j (.inr hge)
  have hobjects : hdl.objects ++ hdr.objects = segment indices s.left s.right := by
    rw [hobjectsl, hobjectsr, ← segment_congr hsamel, segment_append indices hle.1 hle.2]
  have hpermr' : (segment indices m s.right).Perm (segment part.indices m s.right) := by
    rw [← segment_congr hsamer]
    exact hpermr
  have hpermall : (segment indices s.left s.right).Perm (segment part.indices s.left s.right) := by
    rw [← segment_append indices hle.1 hle.2, ← segment_append part.indices hle.1 hle.2, segment_congr hsamel]
    exact hperml.append hpermr'
  refine ⟨by omega, fun i hi hne => ?_, fun j hj => ?_, hpermall.trans hperm, .split axis part.clipL part.clipR hdl hdr,
    hobjects, ⟨fun obj hobj => ?_, fun obj hobj => ?_, hboundsl, hboundsr⟩, ?_, ?_⟩
  · rw [hwordsr i (by omega) (by omega), hwordsl i (by omega) (by omega), setNode_word _ _ _ _ _ _ hne,
      allocate_word _ (by rw [allocate_size]; omega), allocate_word _ hi]
  · rw [houtr j (by omega), houtl j (by omega), houtside j hj]
  · obtain ⟨j, hge, hlt, rfl⟩ := mem_segment.mp (hperml.mem_iff.mp (hobjectsl ▸ hobj))
    exact (hleft j hge hlt).2
  · obtain ⟨j, hge, hlt, rfl⟩ := mem_segment.mp (hpermr'.mem_iff.mp (hobjectsr ▸ hobj))
    exact (hright j hge hlt).2
  · unfold Hierarchy.branches
    split <;> omega
  · intro tree2 indices2 n hsize2 hn hagree hsame
    obtain ⟨hfirst, hlo, hhi⟩ := setNode_words s.tempTree.allocate.allocate s.nodeIndex axis false s.tempTree.size
      part.clipL part.clipR
    have hown : ∀ i, s.nodeIndex ≤ i → i < s.nodeIndex + 3 → tree2.word i =
        (s.tempTree.allocate.allocate.setNode s.nodeIndex axis false s.tempTree.size part.clipL part.clipR).word i := by
      intro i hge hlt
      rw [hagree i (.inl ⟨hge, hlt⟩), hwordsr i (by omega) (by omega), hwordsl i (by omega) (by omega)]
    refine ⟨by omega, s.tempTree.size, ?_, ?_, ?_, by omega, fun _ => ?_, fun _ => ?_⟩
    · rw [hown _ le_rfl (by omega), hfirst]
    · rw [hown _ (by omega) (by omega), hlo]
    · rw [hown _ (by omega) (by omega), hhi]
    · refine hstoredl (by omega) (by omega) (fun i hi => ?_) fun j hge hlt => ?_
      · rw [hagree i (by omega), hwordsr i (by omega) (by omega)]
      · rw [hsame j hge (by omega), hsamel j hge hlt]
    · refine hstoredr hsize2 hn (fun i hi => ?_) fun j hge hlt => ?_
      · exact hagree i (by omega)
      · exact hsame j (by omega) hlt

end Grown

end HysteriaCore.Collision

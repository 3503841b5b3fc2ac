import HysteriaCore.Collision.Hierarchy

/-!
# The walks over the words

A walk over the words of the tree comes to the objects that the recursion over the hierarchy comes to, with
a stack that is never longer than the number of branching nodes above.
-/

namespace HysteriaCore.Collision
open Lib Lib.Extended BIH

/-! ### Node words -/

variable {axis index : ℕ}

theorem nodeWord_eq (haxis : axis < 4) (bvh2 : Bool) (hindex : index < 2 ^ 29) :
    nodeWord axis bvh2 index = axis * 2 ^ 30 + (if bvh2 then 2 ^ 29 else 0) + index := by
  have hflag : axis <<< 30 ||| (if bvh2 then 1 <<< 29 else 0) = (axis * 2 + if bvh2 then 1 else 0) <<< 29 := by
    cases bvh2 with
    | false => simp [Nat.shiftLeft_eq]; omega
    | true =>
      have hor := Nat.shiftLeft_add_eq_or_of_lt (i := 30) (b := 1 <<< 29) (by decide) axis
      simp only [if_true] at hor ⊢
      rw [← hor, Nat.shiftLeft_eq, Nat.shiftLeft_eq, Nat.shiftLeft_eq]
      omega
  unfold nodeWord
  rw [hflag, ← Nat.shiftLeft_add_eq_or_of_lt hindex, Nat.shiftLeft_eq]
  split <;> omega

theorem axisOf_nodeWord (haxis : axis < 4) (bvh2 : Bool) (hindex : index < 2 ^ 29) :
    axisOf (nodeWord axis bvh2 index) = axis := by
  rw [nodeWord_eq haxis bvh2 hindex]
  unfold axisOf
  split <;> omega

theorem isBVH2_nodeWord (haxis : axis < 4) (bvh2 : Bool) (hindex : index < 2 ^ 29) :
    isBVH2 (nodeWord axis bvh2 index) = bvh2 := by
  rw [nodeWord_eq haxis bvh2 hindex]
  unfold isBVH2
  cases bvh2 with
  | false =>
    rw [decide_eq_false_iff_not]
    simp only [Bool.false_eq_true, if_false]
    omega
  | true =>
    rw [decide_eq_true_iff]
    simp only [if_true]
    omega

theorem offsetOf_nodeWord (haxis : axis < 4) (bvh2 : Bool) (hindex : index < 2 ^ 29) :
    offsetOf (nodeWord axis bvh2 index) = index := by
  rw [nodeWord_eq haxis bvh2 hindex]
  unfold offsetOf
  split <;> omega

/-! ### What the words stand for -/

/-- A hierarchy in the words from a node on, over objects in an array of size `n`. What is behind an infinite
plane need not be there. -/
def Stored (tree : Words) (n : ℕ) (indices : ℕ → ℕ) : Hierarchy → ℕ → Prop
  | .leaf objects, node =>
    node + 2 < tree.size ∧ ∃ left, tree.word node = .bits (nodeWord 3 false left) ∧
      tree.word (node + 1) = .bits (u32 objects.length) ∧ objects = (List.range' left objects.length).map indices ∧
      left + objects.length ≤ n ∧ objects ≠ []
  | .split axis clipL clipR left right, node =>
    node + 2 < tree.size ∧ ∃ off, tree.word node = .bits (nodeWord axis false off) ∧
      tree.word (node + 1) = .float clipL ∧ tree.word (node + 2) = .float clipR ∧ off < tree.size ∧
      (clipL ≠ ⊥ → Stored tree n indices left off) ∧ (clipR ≠ ⊤ → Stored tree n indices right (off + 3))
  | .cut axis lo hi child, node =>
    node + 2 < tree.size ∧ ∃ off, tree.word node = .bits (nodeWord axis true off) ∧
      tree.word (node + 1) = .float lo ∧ tree.word (node + 2) = .float hi ∧ off < tree.size ∧
      Stored tree n indices child off

variable {node : ℕ} {h : Hierarchy}

theorem Stored.lt_size {tree : Words} {n : ℕ} {indices : ℕ → ℕ}
    (hstored : Stored tree n indices h node) : node + 2 < tree.size := by
  cases h <;> exact hstored.1

structure Small (bih : BIH) (n : ℕ) (indices : ℕ → ℕ) : Prop where
  objects : bih.objects = (List.range n).map indices
  count : n ≤ 2 ^ 29
  size : bih.tree.size ≤ 2 ^ 29

variable {axis : Fin 3}

section View
variable {bih : BIH} {n : ℕ} {indices : ℕ → ℕ}

theorem objectsFrom_eq (hobjects : bih.objects = (List.range n).map indices) (len : ℕ) :
    ∀ {left : ℕ}, left + len ≤ n → bih.objectsFrom left len = some ((List.range' left len).map indices) := by
  induction len with
  | zero => exact fun _ => rfl
  | succ len ih =>
    intro left hle
    have hlt : left < n := by omega
    unfold BIH.objectsFrom
    rw [hobjects, List.getElem?_map, List.getElem?_range hlt, Option.map_some, Option.bind_some, ih (by omega)]
    rfl

theorem get?_of_lt {tree : Words} {i : ℕ} (h : i < tree.size) : tree.get? i = some (tree.word i) := if_pos h

theorem view_leaf (hsmall : Small bih n indices) {objects : List ℕ}
    (h : Stored bih.tree n indices (.leaf objects) node) : bih.view node = some (.leaf objects) := by
  obtain ⟨hsize, left, hword, hlen, hobjects, hle, hne⟩ := h
  have hpos := List.length_pos_iff.mpr hne
  have hcount := hsmall.count
  have hleft : left < 2 ^ 29 := by omega
  have hints : (toInt32 (u32 objects.length)).toNat = objects.length := by
    have hu : u32 objects.length = objects.length := Nat.mod_eq_of_lt (by omega)
    rw [hu, toInt32_of_range (by omega) (by omega)]
    exact Int.toNat_natCast _
  unfold BIH.view
  rw [get?_of_lt (i := node) (by omega), hword]
  simp only
  rw [axisOf_nodeWord (by decide) false hleft, isBVH2_nodeWord (by decide) false hleft,
    offsetOf_nodeWord (by decide) false hleft, if_neg (by decide), if_neg (by decide),
    get?_of_lt (i := node + 1) (by omega), hlen]
  simp only
  rw [hints, objectsFrom_eq hsmall.objects _ hle, Option.map_some, ← hobjects]

theorem ofNat_axis (axis : Fin 3) : Fin.ofNat 3 axis.val = axis := Fin.ofNat_val_eq_self axis

theorem view_split (hsmall : Small bih n indices) {clipL clipR : Extended ℚ} {left right : Hierarchy}
    (h : Stored bih.tree n indices (.split axis clipL clipR left right) node) :
    ∃ off, bih.view node = some (.inner axis clipL clipR off) ∧
      (clipL ≠ ⊥ → Stored bih.tree n indices left off) ∧ (clipR ≠ ⊤ → Stored bih.tree n indices right (off + 3)) := by
  obtain ⟨hsize, off, hword, hlo, hhi, hoff, hleft, hright⟩ := h
  have hlt := hoff.trans_le hsmall.size
  have haxis : (axis : ℕ) < 4 := by omega
  refine ⟨off, ?_, hleft, hright⟩
  unfold BIH.view
  rw [get?_of_lt (i := node) (by omega), hword]
  simp only
  rw [axisOf_nodeWord haxis false hlt, isBVH2_nodeWord haxis false hlt, offsetOf_nodeWord haxis false hlt,
    if_pos axis.isLt, get?_of_lt (i := node + 1) (by omega), get?_of_lt hsize, hlo, hhi, ofNat_axis]
  rfl

theorem view_cut (hsmall : Small bih n indices) {lo hi : Extended ℚ} {child : Hierarchy}
    (h : Stored bih.tree n indices (.cut axis lo hi child) node) :
    ∃ off, bih.view node = some (.bvh2 axis lo hi off) ∧ Stored bih.tree n indices child off := by
  obtain ⟨hsize, off, hword, hlo, hhi, hoff, hchild⟩ := h
  have hlt := hoff.trans_le hsmall.size
  have haxis : (axis : ℕ) < 4 := by omega
  refine ⟨off, ?_, hchild⟩
  unfold BIH.view
  rw [get?_of_lt (i := node) (by omega), hword]
  simp only
  rw [axisOf_nodeWord haxis true hlt, isBVH2_nodeWord haxis true hlt, offsetOf_nodeWord haxis true hlt,
    if_pos axis.isLt, get?_of_lt (i := node + 1) (by omega), get?_of_lt hsize, hlo, hhi, ofNat_axis]
  rfl

end View

/-! ### Runs -/

def resume (step : Walk → Next) (fuel : ℕ) : Next → Option (Option Walk)
  | .at w => run step fuel w
  | .done w => some (some w)
  | .fault => some none

theorem run_succ (step : Walk → Next) (fuel : ℕ) (w : Walk) :
    run step (fuel + 1) w = resume step fuel (step { w with nodes := w.nodes ++ [w.node] }) := by
  rw [run]
  cases step { w with nodes := w.nodes ++ [w.node] } <;> rfl

def Readable (bih : BIH) (node : ℕ) : Prop := node + 2 < bih.tree.size ∧ bih.view node ≠ none

/-- From `w` a walk comes, with these callbacks, to the point where it goes back up the stack. -/
def Walks (bih : BIH) (step : Walk → Next) (pop : Walk → Next) (w : Walk) (calls : List ℕ) : Prop :=
  ∃ k w', w'.stack = w.stack ∧ w'.calls = w.calls ++ calls ∧ w.maxDist ≤ w'.maxDist ∧
    (∀ m ∈ w'.nodes, m ∈ w.nodes ∨ Readable bih m) ∧ ∀ fuel, run step (k + fuel) w = resume step fuel (pop w')

section Steps
variable {bih : BIH} {step pop : Walk → Next} {w : Walk}

theorem walks_pop (hnode : Readable bih w.node) {w' : Walk} {calls : List ℕ}
    (hstep : step { w with nodes := w.nodes ++ [w.node] } = pop w') (hstack : w'.stack = w.stack)
    (hcalls : w'.calls = w.calls ++ calls) (hmax : w.maxDist ≤ w'.maxDist) (hnodes : w'.nodes = w.nodes ++ [w.node]) :
    Walks bih step pop w calls := by
  refine ⟨1, w', hstack, hcalls, hmax, fun m hm => ?_, fun fuel => ?_⟩
  · rw [hnodes] at hm
    rcases List.mem_append.mp hm with hold | hnew
    · exact .inl hold
    · exact .inr (List.mem_singleton.mp hnew ▸ hnode)
  · rw [Nat.add_comm 1 fuel, run_succ, hstep]

theorem walks_at (hnode : Readable bih w.node) {w' : Walk} {calls : List ℕ}
    (hstep : step { w with nodes := w.nodes ++ [w.node] } = .at w') (hstack : w'.stack = w.stack)
    (hcalls : w'.calls = w.calls) (hmax : w.maxDist = w'.maxDist) (hnodes : w'.nodes = w.nodes ++ [w.node])
    (hwalks : Walks bih step pop w' calls) : Walks bih step pop w calls := by
  obtain ⟨k, w'', hstack', hcalls', hmax', hnodes', hrun⟩ := hwalks
  refine ⟨k + 1, w'', hstack'.trans hstack, by rw [hcalls', hcalls], hmax ▸ hmax', fun m hm => ?_, fun fuel => ?_⟩
  · rcases hnodes' m hm with hold | hnew
    · rw [hnodes] at hold
      rcases List.mem_append.mp hold with hold | hnew
      · exact .inl hold
      · exact .inr (List.mem_singleton.mp hnew ▸ hnode)
    · exact .inr hnew
  · rw [Nat.add_right_comm, run_succ, hstep]
    exact hrun fuel

theorem walks_push (hnode : Readable bih w.node) {w1 : Walk} {entry : StackNode} {calls1 calls2 : List ℕ}
    (hstep : step { w with nodes := w.nodes ++ [w.node] } = .at w1) (hstack : w1.stack = entry :: w.stack)
    (hcalls : w1.calls = w.calls) (hmax : w.maxDist = w1.maxDist) (hnodes : w1.nodes = w.nodes ++ [w.node])
    (hfirst : Walks bih step pop w1 calls1)
    (hpop : ∀ w' : Walk, w'.stack = entry :: w.stack → w.maxDist ≤ w'.maxDist → ∃ w2 : Walk, pop w' = .at w2 ∧
      w2.stack = w.stack ∧ w2.calls = w'.calls ∧ w2.nodes = w'.nodes ∧ w'.maxDist = w2.maxDist ∧
      Walks bih step pop w2 calls2) :
    Walks bih step pop w (calls1 ++ calls2) := by
  obtain ⟨k1, w', hstack1, hcalls1, hmax1, hnodes1, hrun1⟩ := hfirst
  obtain ⟨w2, hat, hstack2, hcalls2, hnodes2, hmax2, k2, w3, hstack3, hcalls3, hmax3, hnodes3, hrun3⟩ :=
    hpop w' (hstack1.trans hstack) (hmax ▸ hmax1)
  refine ⟨k1 + k2 + 1, w3, hstack3.trans hstack2, ?_, ?_, fun m hm => ?_, fun fuel => ?_⟩
  · rw [hcalls3, hcalls2, hcalls1, hcalls, List.append_assoc]
  · exact (hmax ▸ hmax1).trans (hmax2 ▸ hmax3)
  · rcases hnodes3 m hm with hold | hnew
    · rw [hnodes2] at hold
      rcases hnodes1 m hold with hold | hnew
      · rw [hnodes] at hold
        rcases List.mem_append.mp hold with hold | hnew
        · exact .inl hold
        · exact .inr (List.mem_singleton.mp hnew ▸ hnode)
      · exact .inr hnew
    · exact .inr hnew
  · rw [Nat.add_right_comm, run_succ, hstep]
    show run step (k1 + k2 + fuel) w1 = _
    rw [Nat.add_assoc, hrun1, hat]
    exact hrun3 fuel

end Steps

/-! ### The walk of a point -/

section Point
variable {bih : BIH} {n : ℕ} {indices : ℕ → ℕ} (hsmall : Small bih n indices) (p : Vector3)
include hsmall

theorem point_walks : ∀ {w : Walk}, Stored bih.tree n indices h w.node →
    w.stack.length + h.branches ≤ MAX_STACK_SIZE →
    Walks bih (bih.pointStep p) pointPop w (h.pointObjects p) := by
  induction h with
  | leaf objects =>
    intro w hstored _
    have hview := view_leaf hsmall hstored
    have hnode : Readable bih w.node := ⟨hstored.lt_size, by rw [hview]; simp⟩
    have hstep : bih.pointStep p { w with nodes := w.nodes ++ [w.node] } =
        pointPop { w with nodes := w.nodes ++ [w.node], calls := w.calls ++ objects } := by
      unfold BIH.pointStep
      simp only [hview]
    exact walks_pop hnode hstep rfl rfl le_rfl rfl
  | split axis clipL clipR left right ihl ihr =>
    intro w hstored hroom
    obtain ⟨off, hview, hleft, hright⟩ := view_split hsmall hstored
    have hnode : Readable bih w.node := ⟨hstored.lt_size, by rw [hview]; simp⟩
    unfold Hierarchy.pointObjects
    unfold Hierarchy.branches at hroom
    have hstep : bih.pointStep p { w with nodes := w.nodes ++ [w.node] } =
        if clipL < fin (p axis) ∧ fin (p axis) < clipR then pointPop { w with nodes := w.nodes ++ [w.node] }
        else if clipL < fin (p axis) then .at { w with nodes := w.nodes ++ [w.node], node := off + 3 }
        else if fin (p axis) < clipR then .at { w with nodes := w.nodes ++ [w.node], node := off }
        else { w with nodes := w.nodes ++ [w.node], node := off }.push ⟨off + 3, ⊥, ⊥⟩ := by
      unfold BIH.pointStep
      simp only [hview]
    have hleft' : ¬ clipL < fin (p axis) → clipL ≠ ⊥ := fun hnot heq => hnot (heq ▸ bot_lt_fin _)
    have hright' : ¬ fin (p axis) < clipR → clipR ≠ ⊤ := fun hnot heq => hnot (heq ▸ fin_lt_top _)
    by_cases hboth : clipL < fin (p axis) ∧ fin (p axis) < clipR
    · rw [if_pos hboth] at hstep ⊢
      exact walks_pop hnode hstep rfl (List.append_nil _).symm le_rfl rfl
    rw [if_neg hboth] at hstep ⊢
    by_cases hl : clipL < fin (p axis)
    · rw [if_pos hl] at hstep ⊢
      have hr : ¬ fin (p axis) < clipR := fun hr => hboth ⟨hl, hr⟩
      refine walks_at hnode hstep rfl rfl rfl rfl (ihr (hright (hright' hr)) ?_)
      exact (Nat.add_le_add_left (le_trans (le_max_right _ _) (Nat.le_add_right _ _)) _).trans hroom
    rw [if_neg hl] at hstep ⊢
    by_cases hr : fin (p axis) < clipR
    · rw [if_pos hr] at hstep ⊢
      refine walks_at hnode hstep rfl rfl rfl rfl (ihl (hleft (hleft' hl)) ?_)
      exact (Nat.add_le_add_left (le_trans (le_max_left _ _) (Nat.le_add_right _ _)) _).trans hroom
    rw [if_neg hr] at hstep ⊢
    rw [if_neg fun hinf => hinf.elim (hleft' hl) (hright' hr)] at hroom
    have hfree : w.stack.length < MAX_STACK_SIZE := by omega
    have hpush : bih.pointStep p { w with nodes := w.nodes ++ [w.node] } =
        .at { w with nodes := w.nodes ++ [w.node], node := off, stack := ⟨off + 3, ⊥, ⊥⟩ :: w.stack } :=
      hstep.trans (if_pos hfree)
    refine walks_push hnode hpush rfl rfl rfl rfl (ihl (hleft (hleft' hl)) ?_) ?_
    · show (w.stack.length + 1) + left.branches ≤ MAX_STACK_SIZE
      have hmax := le_max_left left.branches right.branches
      omega
    · intro w' hstack _
      refine ⟨{ w' with node := off + 3, stack := w.stack }, ?_, rfl, rfl, rfl, rfl,
        ihr (hright (hright' hr)) ?_⟩
      · unfold pointPop
        rw [hstack]
      · show w.stack.length + right.branches ≤ MAX_STACK_SIZE
        have hmax := le_max_right left.branches right.branches
        omega
  | cut axis lo hi child ih =>
    intro w hstored hroom
    obtain ⟨off, hview, hchild⟩ := view_cut hsmall hstored
    have hnode : Readable bih w.node := ⟨hstored.lt_size, by rw [hview]; simp⟩
    unfold Hierarchy.pointObjects
    have hstep : bih.pointStep p { w with nodes := w.nodes ++ [w.node] } =
        if fin (p axis) < lo ∨ hi < fin (p axis) then pointPop { w with nodes := w.nodes ++ [w.node], node := off }
        else .at { w with nodes := w.nodes ++ [w.node], node := off } := by
      unfold BIH.pointStep
      simp only [hview]
    by_cases hout : fin (p axis) < lo ∨ hi < fin (p axis)
    · rw [if_pos hout] at hstep ⊢
      exact walks_pop hnode hstep rfl (List.append_nil _).symm le_rfl rfl
    · rw [if_neg hout] at hstep ⊢
      exact walks_at hnode hstep rfl rfl rfl rfl (ih hchild hroom)

end Point

/-! ### The walk of a ray -/

def Passive (callback : Callback) : Prop := ∀ o d, (callback o d).1 = false ∧ d ≤ (callback o d).2

theorem leafLoop_passive {callback : Callback} (hpassive : Passive callback) (stop : Bool) (objects : List ℕ) :
    ∀ w : Walk, ∃ d, w.maxDist ≤ d ∧
      leafLoop callback stop objects w = (false, { w with calls := w.calls ++ objects, maxDist := d }) := by
  induction objects with
  | nil =>
    intro w
    refine ⟨w.maxDist, le_rfl, ?_⟩
    rw [List.append_nil]
    rfl
  | cons o rest ih =>
    intro w
    obtain ⟨d, hle, hrest⟩ := ih { w with calls := w.calls ++ [o], maxDist := (callback o w.maxDist).2 }
    refine ⟨d, (hpassive o w.maxDist).2.trans hle, ?_⟩
    unfold leafLoop
    simp only [(hpassive o w.maxDist).1, Bool.and_false, Bool.false_eq_true, if_false]
    rw [hrest, List.append_assoc]
    rfl

structure Interval (lo hi maxDist : Extended ℚ) : Prop where
  bot_lt : ⊥ < lo
  le : lo ≤ hi
  lt_top : hi < ⊤
  le_max : hi ≤ maxDist

theorem planeAt_bot_of_pos {r : Ray} (hdir : ¬ r.dir axis < 0) :
    Hierarchy.planeAt r axis ⊥ = ⊥ ∧ Hierarchy.planeAt r axis ⊤ = ⊤ := by
  have hinv : ¬ r.invDir axis < 0 := not_lt.mpr (by unfold Ray.invDir; exact one_div_nonneg.mpr (not_lt.mp hdir))
  unfold Hierarchy.planeAt
  rw [along_bot, along_top, if_neg hinv, if_neg hinv]
  exact ⟨rfl, rfl⟩

theorem planeAt_bot_of_neg {r : Ray} (hdir : r.dir axis < 0) :
    Hierarchy.planeAt r axis ⊥ = ⊤ ∧ Hierarchy.planeAt r axis ⊤ = ⊥ := by
  have hinv : r.invDir axis < 0 := by unfold Ray.invDir; exact one_div_neg.mpr hdir
  unfold Hierarchy.planeAt
  rw [along_bot, along_top, if_pos hinv, if_pos hinv]
  exact ⟨rfl, rfl⟩

section RayWalk
variable {bih : BIH} {n : ℕ} {indices : ℕ → ℕ} (hsmall : Small bih n indices) {r : Ray} {callback : Callback}
  (hpassive : Passive callback) (stop : Bool)

def rayBack (w : Walk) : Next := rayPop w w.stack

theorem pass_walks {w : Walk} {front back : Hierarchy} (nf nb : ℕ) {tf tb : Extended ℚ}
    (hinterval : Interval w.intervalMin w.intervalMax w.maxDist) (hnode : Readable bih w.node)
    (hstep : bih.rayStep r callback stop { w with nodes := w.nodes ++ [w.node] } =
      if tf < w.intervalMin ∧ w.intervalMax < tb then rayBack { w with nodes := w.nodes ++ [w.node] }
      else if tf < w.intervalMin then
        .at { w with nodes := w.nodes ++ [w.node], node := nb, intervalMin := if w.intervalMin ≤ tb then tb else w.intervalMin }
      else if w.intervalMax < tb then
        .at { w with nodes := w.nodes ++ [w.node], node := nf, intervalMax := if tf ≤ w.intervalMax then tf else w.intervalMax }
      else
        { w with nodes := w.nodes ++ [w.node], node := nf, intervalMax := if tf ≤ w.intervalMax then tf else w.intervalMax }.push
          ⟨nb, if w.intervalMin ≤ tb then tb else w.intervalMin, w.intervalMax⟩)
    (hone : w.stack.length + max front.branches back.branches ≤ MAX_STACK_SIZE)
    (htwo : ¬ tf < w.intervalMin → ¬ w.intervalMax < tb →
      w.stack.length + 1 + max front.branches back.branches ≤ MAX_STACK_SIZE)
    (hfront : ¬ tf < w.intervalMin → ∀ {w' : Walk}, w'.node = nf →
      Interval w'.intervalMin w'.intervalMax w'.maxDist → w'.stack.length + front.branches ≤ MAX_STACK_SIZE →
      Walks bih (bih.rayStep r callback stop) rayBack w' (front.rayObjects r w'.intervalMin w'.intervalMax))
    (hback : ¬ w.intervalMax < tb → ∀ {w' : Walk}, w'.node = nb →
      Interval w'.intervalMin w'.intervalMax w'.maxDist → w'.stack.length + back.branches ≤ MAX_STACK_SIZE →
      Walks bih (bih.rayStep r callback stop) rayBack w' (back.rayObjects r w'.intervalMin w'.intervalMax)) :
    Walks bih (bih.rayStep r callback stop) rayBack w
      (Hierarchy.pass tf tb (front.rayObjects r) (back.rayObjects r) w.intervalMin w.intervalMax) := by
  obtain ⟨hbot, hle, htop, hmax⟩ := hinterval
  have hmaxl := le_max_left front.branches back.branches
  have hmaxr := le_max_right front.branches back.branches
  -- the interval of the first child ends where the ray leaves it, that of the other begins where it enters it
  have hnear : ¬ tf < w.intervalMin →
      Interval w.intervalMin (if tf ≤ w.intervalMax then tf else w.intervalMax) w.maxDist := by
    intro hnot
    split
    · rename_i htf
      exact ⟨hbot, not_lt.mp hnot, htf.trans_lt htop, htf.trans hmax⟩
    · exact ⟨hbot, hle, htop, hmax⟩
  have hfar : ¬ w.intervalMax < tb →
      Interval (if w.intervalMin ≤ tb then tb else w.intervalMin) w.intervalMax w.maxDist := by
    intro hnot
    split
    · rename_i htb
      exact ⟨hbot.trans_le htb, not_lt.mp hnot, htop, hmax⟩
    · exact ⟨hbot, hle, htop, hmax⟩
  unfold Hierarchy.pass
  by_cases hboth : tf < w.intervalMin ∧ w.intervalMax < tb
  · rw [if_pos hboth] at hstep ⊢
    exact walks_pop hnode hstep rfl (List.append_nil _).symm le_rfl rfl
  rw [if_neg hboth] at hstep ⊢
  by_cases hf : tf < w.intervalMin
  · rw [if_pos hf] at hstep ⊢
    have hb : ¬ w.intervalMax < tb := fun hb => hboth ⟨hf, hb⟩
    refine walks_at hnode hstep rfl rfl rfl rfl (hback hb rfl (hfar hb) ?_)
    show w.stack.length + _ ≤ _
    omega
  rw [if_neg hf] at hstep ⊢
  by_cases hb : w.intervalMax < tb
  · rw [if_pos hb] at hstep ⊢
    refine walks_at hnode hstep rfl rfl rfl rfl (hfront hf rfl (hnear hf) ?_)
    show w.stack.length + _ ≤ _
    omega
  rw [if_neg hb] at hstep ⊢
  have hroom := htwo hf hb
  have hfree : w.stack.length < MAX_STACK_SIZE := by omega
  have hpush := hstep.trans (if_pos hfree)
  refine walks_push hnode hpush rfl rfl rfl rfl (hfront hf rfl (hnear hf) ?_) ?_
  · show (w.stack.length + 1) + _ ≤ _
    omega
  · intro w' hstack hdist
    obtain ⟨hbot', hle', htop', hmax'⟩ := hfar hb
    refine ⟨{ w' with
      node := nb
      stack := w.stack
      intervalMin := if w.intervalMin ≤ tb then tb else w.intervalMin
      intervalMax := w.intervalMax }, ?_, rfl, rfl, rfl, rfl, hback hb rfl ⟨hbot', hle', htop', hmax'.trans hdist⟩ ?_⟩
    · unfold rayBack
      rw [hstack]
      unfold rayPop
      exact if_neg (not_lt.mpr ((hle'.trans hmax').trans hdist))
    · show w.stack.length + _ ≤ _
      omega

include hsmall hpassive

theorem ray_walks : ∀ {w : Walk}, Stored bih.tree n indices h w.node →
    Interval w.intervalMin w.intervalMax w.maxDist → w.stack.length + h.branches ≤ MAX_STACK_SIZE →
    Walks bih (bih.rayStep r callback stop) rayBack w (h.rayObjects r w.intervalMin w.intervalMax) := by
  induction h with
  | leaf objects =>
    intro w hstored _ _
    have hview := view_leaf hsmall hstored
    have hnode : Readable bih w.node := ⟨hstored.lt_size, by rw [hview]; simp⟩
    obtain ⟨d, hle, hloop⟩ := leafLoop_passive hpassive stop objects { w with nodes := w.nodes ++ [w.node] }
    have hstep : bih.rayStep r callback stop { w with nodes := w.nodes ++ [w.node] } =
        rayBack { w with nodes := w.nodes ++ [w.node], calls := w.calls ++ objects, maxDist := d } := by
      unfold BIH.rayStep
      simp only [hview, hloop, Bool.false_eq_true, if_false]
      rfl
    exact walks_pop hnode hstep rfl rfl hle rfl
  | split axis clipL clipR left right ihl ihr =>
    intro w hstored hinterval hroom
    obtain ⟨off, hview, hleft, hright⟩ := view_split hsmall hstored
    have hnode : Readable bih w.node := ⟨hstored.lt_size, by rw [hview]; simp⟩
    unfold Hierarchy.rayObjects
    unfold Hierarchy.branches at hroom
    have hone : w.stack.length + max left.branches right.branches ≤ MAX_STACK_SIZE := by
      split at hroom <;> omega
    have htwo : clipL ≠ ⊥ → clipR ≠ ⊤ → w.stack.length + 1 + max left.branches right.branches ≤ MAX_STACK_SIZE := by
      intro hl hr
      rw [if_neg fun hinf => hinf.elim hl hr] at hroom
      omega
    by_cases hneg : r.dir axis < 0
    · rw [if_pos hneg]
      obtain ⟨hbot, htop⟩ := planeAt_bot_of_neg hneg
      have hl : ¬ w.intervalMax < Hierarchy.planeAt r axis clipL → clipL ≠ ⊥ := by
        rintro hnot rfl
        rw [hbot] at hnot
        exact hnot hinterval.lt_top
      have hr : ¬ Hierarchy.planeAt r axis clipR < w.intervalMin → clipR ≠ ⊤ := by
        rintro hnot rfl
        rw [htop] at hnot
        exact hnot hinterval.bot_lt
      refine pass_walks stop (off + 3) off hinterval hnode ?_ (by rw [max_comm]; exact hone)
        (fun hf hb => by rw [max_comm]; exact htwo (hl hb) (hr hf))
        (fun hf {w'} hw' => by have := hright (hr hf); rw [← hw'] at this; exact ihr this)
        (fun hb {w'} hw' => by have := hleft (hl hb); rw [← hw'] at this; exact ihl this)
      unfold BIH.rayStep
      simp only [hview, decide_eq_true hneg, if_true]
      rfl
    · rw [if_neg hneg]
      obtain ⟨hbot, htop⟩ := planeAt_bot_of_pos hneg
      have hl : ¬ Hierarchy.planeAt r axis clipL < w.intervalMin → clipL ≠ ⊥ := by
        rintro hnot rfl
        rw [hbot] at hnot
        exact hnot hinterval.bot_lt
      have hr : ¬ w.intervalMax < Hierarchy.planeAt r axis clipR → clipR ≠ ⊤ := by
        rintro hnot rfl
        rw [htop] at hnot
        exact hnot hinterval.lt_top
      refine pass_walks stop off (off + 3) hinterval hnode ?_ hone
        (fun hf hb => htwo (hl hf) (hr hb))
        (fun hf {w'} hw' => by have := hleft (hl hf); rw [← hw'] at this; exact ihl this)
        (fun hb {w'} hw' => by have := hright (hr hb); rw [← hw'] at this; exact ihr this)
      unfold BIH.rayStep
      simp only [hview, decide_eq_false hneg, Bool.false_eq_true, if_false]
      rfl
  | cut axis lo hi child ih =>
    intro w hstored hinterval hroom
    obtain ⟨off, hview, hchild⟩ := view_cut hsmall hstored
    have hnode : Readable bih w.node := ⟨hstored.lt_size, by rw [hview]; simp⟩
    unfold Hierarchy.rayObjects
    simp only
    have hstep : bih.rayStep r callback stop { w with nodes := w.nodes ++ [w.node] } =
        let tf := Hierarchy.planeAt r axis (if r.dir axis < 0 then hi else lo)
        let tb := Hierarchy.planeAt r axis (if r.dir axis < 0 then lo else hi)
        let inside := { w with
          nodes := w.nodes ++ [w.node]
          node := off
          intervalMin := if w.intervalMin ≤ tf then tf else w.intervalMin
          intervalMax := if tb ≤ w.intervalMax then tb else w.intervalMax }
        if inside.intervalMax < inside.intervalMin then rayBack inside else .at inside := by
      unfold BIH.rayStep
      simp only [hview, decide_eq_true_eq]
      rfl
    simp only at hstep
    generalize Hierarchy.planeAt r axis (if r.dir axis < 0 then hi else lo) = tf at hstep ⊢
    generalize Hierarchy.planeAt r axis (if r.dir axis < 0 then lo else hi) = tb at hstep ⊢
    rw [← max_def, ← min_def] at hstep ⊢
    by_cases hempty : min tb w.intervalMax < max w.intervalMin tf
    · rw [if_pos hempty] at hstep ⊢
      exact walks_pop hnode hstep rfl (List.append_nil _).symm le_rfl rfl
    · rw [if_neg hempty] at hstep ⊢
      refine walks_at hnode hstep rfl rfl rfl rfl (ih hchild ⟨?_, not_lt.mp hempty, ?_, ?_⟩ hroom)
      · exact lt_max_of_lt_left hinterval.bot_lt
      · exact min_lt_of_right_lt hinterval.lt_top
      · exact min_le_of_right_le hinterval.le_max

end RayWalk

end HysteriaCore.Collision

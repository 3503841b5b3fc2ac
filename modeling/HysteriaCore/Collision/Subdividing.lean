import HysteriaCore.Collision.Building
import Mathlib.Tactic.Linarith

/-!
# The builder's recursion

While it runs, the centres of the objects in a range stay inside the grid box and their boxes inside the node
box, so that no check of a round fails.
-/

namespace HysteriaCore.Collision
open Lib Lib.Extended

def Within (primBound : List AABox) (c : Scope) (obj : ℕ) : Prop :=
  ∀ axis, (c.gridBox.lo axis ≤ center (bound primBound obj) axis ∧
    center (bound primBound obj) axis ≤ c.gridBox.hi axis) ∧
    c.nodeBox.lo axis ≤ fin ((bound primBound obj).lo axis) ∧ fin ((bound primBound obj).hi axis) ≤ c.nodeBox.hi axis

structure Ready (primBound : List AABox) (c : Scope) : Prop where
  lt : c.left < c.right
  room : c.nodeIndex + 3 ≤ c.tempTree.size
  within : InRange c (Within primBound c)

structure ReadyLoop (primBound : List AABox) (s : Loop) : Prop where
  ready : Ready primBound s.toScope
  depth : s.depth < MAX_STACK_SIZE
  clip : ∀ clip, s.prevClip = some clip → ∃ axis, s.axis = some axis ∧
    InRange s.toScope (Clipped (bound primBound) axis clip s.wasLeft)

def Returns (primBound : List AABox) (c : Scope) (branches : ℕ) (result : Built) : Prop :=
  ∀ r, result = some r → ∃ tree indices, r = .ok (tree, indices) ∧ Grown primBound c branches tree indices

section Boxes
variable {primBound : List AABox} (hboxes : ∀ b ∈ primBound, ∀ axis, b.lo axis ≤ b.hi axis)
include hboxes

theorem bound_le (obj : ℕ) (axis : Fin 3) : (bound primBound obj).lo axis ≤ (bound primBound obj).hi axis := by
  unfold bound
  rw [List.getD_eq_getElem?_getD]
  rcases Nat.lt_or_ge obj primBound.length with hlt | hge
  · rw [List.getElem?_eq_getElem hlt, Option.getD_some]
    exact hboxes _ (List.getElem_mem hlt) axis
  · rw [List.getElem?_eq_none hge, Option.getD_none]

theorem center_bounds (obj : ℕ) (axis : Fin 3) :
    (bound primBound obj).lo axis ≤ center (bound primBound obj) axis ∧
      center (bound primBound obj) axis ≤ (bound primBound obj).hi axis := by
  have hle := bound_le hboxes obj axis
  unfold center
  constructor <;> linarith

theorem consistent {c : Scope} (h : Ready primBound c) :
    (¬ ∃ i, c.gridBox.hi i - c.gridBox.lo i < 0) ∧
      ¬ ∃ i, c.nodeBox.hi i < fin (c.gridBox.lo i) ∨ fin (c.gridBox.hi i) < c.nodeBox.lo i := by
  have hfirst := h.within c.left le_rfl h.lt
  constructor
  · rintro ⟨i, hneg⟩
    obtain ⟨⟨hlo, hhi⟩, -⟩ := hfirst i
    linarith
  · rintro ⟨i, hout⟩
    obtain ⟨⟨hlo, hhi⟩, hnode⟩ := hfirst i
    obtain ⟨hbelow, habove⟩ := center_bounds hboxes (c.indices c.left) i
    rcases hout with hout | hout
    · exact absurd (hnode.2.trans_lt hout) (fin_le_fin.mpr (hlo.trans habove)).not_gt
    · exact absurd (hout.trans_le hnode.1) (fin_le_fin.mpr (hbelow.trans hhi)).not_gt

end Boxes

section Round
variable {primBound : List AABox} {s : Loop} {axis : Fin 3} {split : ℚ} {m : ℕ} {part : Part}

theorem Within.mono {c c' : Scope} {obj : ℕ} (h : Within primBound c obj)
    (hgrid : ∀ i, c'.gridBox.lo i = c.gridBox.lo i ∨ c'.gridBox.lo i ≤ center (bound primBound obj) i)
    (hgrid' : ∀ i, c'.gridBox.hi i = c.gridBox.hi i ∨ center (bound primBound obj) i ≤ c'.gridBox.hi i)
    (hnode : ∀ i, c'.nodeBox.lo i = c.nodeBox.lo i ∨ c'.nodeBox.lo i ≤ fin ((bound primBound obj).lo i))
    (hnode' : ∀ i, c'.nodeBox.hi i = c.nodeBox.hi i ∨ fin ((bound primBound obj).hi i) ≤ c'.nodeBox.hi i) :
    Within primBound c' obj := by
  intro i
  obtain ⟨⟨hlo, hhi⟩, hlow, hhigh⟩ := h i
  refine ⟨⟨?_, ?_⟩, ?_, ?_⟩
  · exact (hgrid i).elim (fun heq => heq ▸ hlo) id
  · exact (hgrid' i).elim (fun heq => heq ▸ hhi) id
  · exact (hnode i).elim (fun heq => heq ▸ hlow) id
  · exact (hnode' i).elim (fun heq => heq ▸ hhigh) id

theorem update_or {α : Type*} (f : Fin 3 → α) (axis : Fin 3) (x : α) {P : Fin 3 → α → Prop} (h : P axis x) (i : Fin 3) :
    Function.update f axis x i = f i ∨ P i (Function.update f axis x i) := by
  by_cases heq : i = axis
  · rw [heq, Function.update_self]
    exact .inr h
  · exact .inl (Function.update_of_ne heq _ _)

theorem Partitioned.within (hpart : Partitioned primBound axis split s.left s.right ⟨s.indices, ⊥, ⊤, ⊤, ⊥⟩ m part)
    (h : Ready primBound s.toScope) :
    ∀ j, s.left ≤ j → j < s.right → Within primBound s.toScope (part.indices j) :=
  forall_of_perm hpart.perm h.within

theorem ready_cut (hpart : Partitioned primBound axis split s.left s.right ⟨s.indices, ⊥, ⊤, ⊤, ⊥⟩ m part)
    (h : Ready primBound s.toScope) : Ready primBound (s.cut axis part) where
  lt := h.lt
  room := le_rfl
  within j hge hlt :=
    (hpart.within h j hge hlt).mono (fun _ => .inl rfl) (fun _ => .inl rfl)
      (update_or s.nodeBox.lo axis part.nodeL (P := fun i x => x ≤ fin ((bound primBound (part.indices j)).lo i))
        (hpart.node j hge hlt).1)
      (update_or s.nodeBox.hi axis part.nodeR (P := fun i x => fin ((bound primBound (part.indices j)).hi i) ≤ x)
        (hpart.node j hge hlt).2)

theorem ready_allLeft (hpart : Partitioned primBound axis split s.left s.right ⟨s.indices, ⊥, ⊤, ⊤, ⊥⟩ s.right part)
    (h : ReadyLoop primBound s) : ReadyLoop primBound (s.allLeft axis split part) where
  ready := {
    lt := h.ready.lt
    room := h.ready.room
    within := fun j hge hlt =>
      (hpart.within h.ready j hge hlt).mono (fun _ => .inl rfl)
        (update_or s.gridBox.hi axis split (P := fun i x => center (bound primBound (part.indices j)) i ≤ x)
          (hpart.isLeft j hge hlt).1)
        (fun _ => .inl rfl) (fun _ => .inl rfl) }
  depth := h.depth
  clip clip hclip := by
    unfold Loop.allLeft at hclip ⊢
    simp only at hclip ⊢
    by_cases hle : part.clipL ≤ fin split
    · rw [if_pos hle] at hclip
      rw [if_pos hle]
      obtain rfl := Option.some.inj hclip
      exact ⟨axis, rfl, fun j hge hlt => (hpart.isLeft j hge hlt).2⟩
    · rw [if_neg hle] at hclip
      exact absurd hclip (Option.some_ne_none _).symm

theorem ready_allRight {m : ℕ} (hm : m ≤ s.left)
    (hpart : Partitioned primBound axis split s.left s.right ⟨s.indices, ⊥, ⊤, ⊤, ⊥⟩ m part)
    (h : ReadyLoop primBound s) : ReadyLoop primBound (s.allRight axis split part) where
  ready := {
    lt := h.ready.lt
    room := h.ready.room
    within := fun j hge hlt =>
      (hpart.within h.ready j hge hlt).mono
        (update_or s.gridBox.lo axis split (P := fun i x => x ≤ center (bound primBound (part.indices j)) i)
          (hpart.isRight j (hm.trans hge) hlt).1.le)
        (fun _ => .inl rfl) (fun _ => .inl rfl) (fun _ => .inl rfl) }
  depth := h.depth
  clip clip hclip := by
    unfold Loop.allRight at hclip ⊢
    simp only at hclip ⊢
    by_cases hle : fin split ≤ part.clipR
    · rw [if_pos hle] at hclip
      rw [if_pos hle]
      obtain rfl := Option.some.inj hclip
      exact ⟨axis, rfl, fun j hge hlt => (hpart.isRight j (hm.trans hge) hlt).2⟩
    · rw [if_neg hle] at hclip
      exact absurd hclip (Option.some_ne_none _).symm

end Round

section Children
variable {primBound : List AABox} {s : Loop} {axis : Fin 3} {split : ℚ} {m : ℕ} {part : Part}

theorem commit_spec (s : Loop) (hroom : s.nodeIndex + 3 ≤ s.tempTree.size) :
    s.commit.left = s.left ∧ s.commit.right = s.right ∧ s.commit.indices = s.indices ∧
      s.commit.gridBox = s.gridBox ∧ s.commit.nodeBox = s.nodeBox ∧ s.commit.depth ≤ s.depth + 1 ∧
      s.depth ≤ s.commit.depth ∧ s.commit.nodeIndex + 3 ≤ s.commit.tempTree.size := by
  unfold Loop.commit
  split
  · refine ⟨rfl, rfl, rfl, rfl, rfl, le_rfl, Nat.le_succ _, ?_⟩
    simp only
    split <;> exact le_rfl
  · exact ⟨rfl, rfl, rfl, rfl, rfl, Nat.le_succ _, le_rfl, hroom⟩

theorem ready_leftChild (hlm : s.left < m) (hmr : m < s.right)
    (hpart : Partitioned primBound axis split s.left s.right ⟨s.indices, ⊥, ⊤, ⊤, ⊥⟩ m part)
    (hready : Ready primBound s.toScope) : Ready primBound (s.leftChild axis split m part) where
  lt := hlm
  room := by
    have hindex : s.childIndex m = s.tempTree.size := if_pos (by omega)
    unfold Loop.leftChild Loop.childrenAllocated
    simp only [setNode_size, hindex]
    rw [if_pos (by omega), if_pos (by omega), allocate_size, allocate_size]
    omega
  within j hge hlt :=
    (hpart.within hready j hge (hlt.trans hmr)).mono (fun _ => .inl rfl)
      (update_or s.gridBox.hi axis split (P := fun i x => center (bound primBound (part.indices j)) i ≤ x)
        (hpart.isLeft j hge hlt).1)
      (fun _ => .inl rfl)
      (update_or s.nodeBox.hi axis part.clipL (P := fun i x => fin ((bound primBound (part.indices j)).hi i) ≤ x)
        (hpart.isLeft j hge hlt).2)

theorem ready_rightChild (hlm : s.left < m) (hmr : m < s.right)
    (hpart : Partitioned primBound axis split s.left s.right ⟨s.indices, ⊥, ⊤, ⊤, ⊥⟩ m part)
    (hready : Ready primBound s.toScope) {b : ℕ} {tree : Words} {indices : ℕ → ℕ}
    (hgrown : Grown primBound (s.leftChild axis split m part) b tree indices) :
    Ready primBound (s.rightChild axis split m part tree indices) where
  lt := hmr
  room := by
    have hindex : s.childIndex m = s.tempTree.size := if_pos (by omega)
    have hsize := hgrown.size
    unfold Loop.leftChild Loop.childrenAllocated at hsize
    simp only [setNode_size] at hsize
    rw [if_pos (by omega), if_pos (by omega), allocate_size, allocate_size] at hsize
    unfold Loop.rightChild
    simp only [hindex]
    omega
  within j hge hlt := by
    have hsame : indices j = part.indices j := hgrown.outside j (.inr hge)
    show Within primBound _ (indices j)
    rw [hsame]
    exact (hpart.within hready j (hlm.le.trans hge) hlt).mono
      (update_or s.gridBox.lo axis split (P := fun i x => x ≤ center (bound primBound (part.indices j)) i)
        (hpart.isRight j hge hlt).1.le)
      (fun _ => .inl rfl)
      (update_or s.nodeBox.lo axis part.clipR (P := fun i x => x ≤ fin ((bound primBound (part.indices j)).lo i))
        (hpart.isRight j hge hlt).2)
      (fun _ => .inl rfl)

end Children

section Recursion
variable {primBound : List AABox} (maxPrims : ℤ)

theorem returns_leaf {c : Scope} {b : ℕ} (h : Ready primBound c) :
    Returns primBound c b (some (.ok (createNode c.tempTree c.nodeIndex c.left c.right, c.indices))) := by
  intro r hr
  obtain rfl := Option.some.inj hr
  exact ⟨_, _, rfl, grown_leaf h.lt h.room⟩

theorem returns_enter {loop : Loop → Built}
    (hloop : ∀ s, ReadyLoop primBound s → Returns primBound s.toScope (MAX_STACK_SIZE - s.depth) (loop s))
    {c : Scope} (h : Ready primBound c) :
    Returns primBound c (MAX_STACK_SIZE - c.depth) (enter loop maxPrims c) := by
  unfold enter
  split
  · exact returns_leaf h
  · rename_i hgo
    have hdepth : c.depth < MAX_STACK_SIZE := by omega
    refine hloop _ ⟨h, hdepth, ?_⟩
    rintro clip hnone
    exact absurd hnone (Option.some_ne_none _).symm

theorem returns_divide {loop : Loop → Built}
    (hloop : ∀ s, ReadyLoop primBound s → Returns primBound s.toScope (MAX_STACK_SIZE - s.depth) (loop s))
    {s : Loop} (h : Ready primBound s.toScope) {axis : Fin 3} {split : ℚ} {m : ℕ} {part : Part} (hlm : s.left < m)
    (hmr : m < s.right)
    (hpart : Partitioned primBound axis split s.left s.right ⟨s.indices, ⊥, ⊤, ⊤, ⊥⟩ m part) :
    Returns primBound s.toScope (MAX_STACK_SIZE - (s.depth + 1) + 1)
      (match callIf (decide (m - s.left > 0)) (enter loop maxPrims (s.leftChild axis split m part))
          (s.leftChild axis split m part).tempTree part.indices with
        | some (.ok left) =>
          callIf (decide (s.right - m > 0))
            (enter loop maxPrims (s.rightChild axis split m part left.1 left.2)) left.1 left.2
        | other => other) := by
  have hl : decide (m - s.left > 0) = true := decide_eq_true (by omega)
  have hr : decide (s.right - m > 0) = true := decide_eq_true (by omega)
  have hleft := returns_enter maxPrims hloop (ready_leftChild hlm hmr hpart h)
  unfold callIf
  simp only [hl, hr, if_true]
  intro r hresult
  cases hcall : enter loop maxPrims (s.leftChild axis split m part) with
  | none =>
    rw [hcall] at hresult
    exact absurd hresult (Option.some_ne_none _).symm
  | some result =>
    obtain ⟨tree1, indices1, rfl, hgrown1⟩ := hleft result hcall
    rw [hcall] at hresult
    obtain ⟨tree, indices, rfl, hgrown⟩ :=
      returns_enter maxPrims hloop (ready_rightChild hlm hmr hpart h hgrown1) r hresult
    refine ⟨tree, indices, rfl, (grown_divide h.room hlm hmr hpart hgrown1 hgrown).mono ?_⟩
    show max (MAX_STACK_SIZE - (s.depth + 1)) (MAX_STACK_SIZE - (s.depth + 1)) + 1 ≤ _
    rw [Nat.max_self]

theorem returns_subdivideLoop (hboxes : ∀ b ∈ primBound, ∀ axis, b.lo axis ≤ b.hi axis) (fuel : ℕ) :
    ∀ s, ReadyLoop primBound s →
      Returns primBound s.toScope (MAX_STACK_SIZE - s.depth) (subdivideLoop primBound maxPrims fuel s) := by
  induction fuel with
  | zero =>
    rintro s - r hnone
    exact absurd hnone (Option.some_ne_none _).symm
  | succ fuel ih =>
    intro s h
    obtain ⟨hextents, hoverlap⟩ := consistent hboxes h.ready
    unfold subdivideLoop
    simp only
    rw [if_neg hextents, if_neg hoverlap]
    generalize primaryAxis (fun i => s.gridBox.hi i - s.gridBox.lo i) = axis
    generalize 1 / 2 * (s.gridBox.lo axis + s.gridBox.hi axis) = split
    have hpart := partitioned primBound axis split (s.right - s.left) s.left
      ⟨s.indices, ⊥, ⊤, ⊤, ⊥⟩
    have hlt := h.ready.lt
    rw [Nat.add_sub_cancel' hlt.le] at hpart
    generalize partition primBound axis split (s.right - s.left) s.left ⟨s.indices, ⊥, ⊤, ⊤, ⊥⟩ = r at hpart ⊢
    obtain ⟨m, part⟩ := r
    simp only at hpart ⊢
    -- what is done with the rearranged objects is done with the objects
    have hrearranged : Ready primBound { s.toScope with indices := part.indices } :=
      ⟨h.ready.lt, h.ready.room, hpart.within h.ready⟩
    have hpermuted : ∀ {c : Scope} {b : ℕ} {result : Built}, c.left = s.left → c.right = s.right →
        c.tempTree = s.tempTree → c.nodeIndex = s.nodeIndex → c.indices = part.indices →
        Returns primBound c b result → Returns primBound s.toScope b result := by
      intro c b result hleft hright htree hnode hindices hreturns r hr
      obtain ⟨tree, indices, hok, hgrown⟩ := hreturns r hr
      exact ⟨tree, indices, hok, hgrown.of_perm hleft hright htree hnode (hindices ▸ hpart.outside) (hindices ▸ hpart.perm)⟩
    have hstuck : Returns primBound s.toScope (MAX_STACK_SIZE - s.depth) { s with indices := part.indices }.leaf :=
      hpermuted (c := { s.toScope with indices := part.indices }) rfl rfl rfl rfl rfl (returns_leaf hrearranged)
    split
    · intro r hr
      obtain ⟨tree, indices, hok, hgrown⟩ := returns_enter maxPrims ih (ready_cut hpart h.ready) r hr
      refine ⟨tree, indices, hok, (grown_cut h.ready.room hpart.outside hpart.perm hpart.node hgrown).mono ?_⟩
      show MAX_STACK_SIZE - (s.depth + 1) ≤ _
      omega
    split
    · rename_i hall
      rw [hall] at hpart
      split
      · exact hstuck
      · exact hpermuted (c := (s.allLeft axis split part).toScope) rfl rfl rfl rfl rfl (ih _ (ready_allLeft hpart h))
    split
    · rename_i hall
      split
      · exact hstuck
      · exact hpermuted (c := (s.allRight axis split part).toScope) rfl rfl rfl rfl rfl (ih _ (ready_allRight hall hpart h))
    · rename_i hnotLeft hnotRight
      obtain ⟨hleft, hright, hindices, hgrid, hnode, hdepth, hdepth', hroom⟩ := commit_spec s h.ready.room
      have hpart' : Partitioned primBound axis split s.commit.left s.commit.right ⟨s.commit.indices, ⊥, ⊤, ⊤, ⊥⟩ m part := by
        rw [hleft, hright, hindices]
        exact hpart
      have hready : Ready primBound s.commit.toScope := by
        refine ⟨hleft ▸ hright ▸ hlt, hroom, ?_⟩
        unfold InRange Within
        rw [hleft, hright, hindices, hgrid, hnode]
        exact h.ready.within
      have hle := hpart.le
      have hreturns := returns_divide maxPrims ih hready (m := m) (by omega) (by omega) hpart'
      rw [hleft, hright] at hreturns
      intro r hr
      obtain ⟨tree, indices, hok, hgrown⟩ := hreturns r hr
      refine ⟨tree, indices, hok, (grown_commit h.ready.room h.clip hgrown).mono ?_⟩
      have hmax := h.depth
      omega

end Recursion

end HysteriaCore.Collision

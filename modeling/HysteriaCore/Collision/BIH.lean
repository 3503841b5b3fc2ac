import HysteriaCore.Lib.Extended
import HysteriaCore.Lib.Words
import Mathlib.Algebra.Order.Field.Rat
import Mathlib.Data.Fin.VecNotation

/-!
# The bounding interval hierarchy (collision/BoundingIntervalHierarchy.h, .cpp)

Floats are exact rationals, and the clip planes have the two infinities as well; a NaN, which only marks
that a value is missing, is `none`. Ranges are half open: `right` is one more than in the source. The
statistics are left out.
-/

namespace HysteriaCore.Collision
open Lib Lib.Extended

abbrev Vector3 := Fin 3 → ℚ

structure AABox where
  lo : Vector3
  hi : Vector3

structure AABound where
  lo : Fin 3 → Extended ℚ
  hi : Fin 3 → Extended ℚ

def AABox.merge (a b : AABox) : AABox := ⟨fun i => min (a.lo i) (b.lo i), fun i => max (a.hi i) (b.hi i)⟩

def AABox.contains (b : AABox) (p : Vector3) : Bool := decide (∀ i, b.lo i ≤ p i ∧ p i ≤ b.hi i)

def MAX_STACK_SIZE : ℕ := 64

def fuzzyEpsilon : ℚ := 2748779 / 274877906944

def fuzzyEq (a b : ℚ) : Bool := decide (a = b ∨ |a - b| ≤ fuzzyEpsilon * (|a| + 1))

def primaryAxis (d : Vector3) : Fin 3 :=
  if |d 0| > |d 1| then (if |d 0| > |d 2| then 0 else 2) else if |d 1| > |d 2| then 1 else 2

/-! ### The words of the tree -/

inductive Word where
  | bits (n : ℕ)
  | float (x : Extended ℚ)

structure Words where
  size : ℕ
  word : ℕ → Word

namespace Words
variable (w : Words)

def push_back (x : Word) : Words := ⟨w.size + 1, Function.update w.word w.size x⟩

def allocate : Words := ((w.push_back (.bits 0)).push_back (.bits 0)).push_back (.bits 0)

def set (i : ℕ) (x : Word) : Words := { w with word := Function.update w.word i x }

def get? (i : ℕ) : Option Word := if i < w.size then some (w.word i) else none

end Words

def nodeWord (axis : ℕ) (bvh2 : Bool) (index : ℕ) : ℕ :=
  (axis <<< 30 ||| (if bvh2 then 1 <<< 29 else 0) ||| index) % 2 ^ 32

def axisOf (tn : ℕ) : ℕ := tn / 2 ^ 30 % 4

def isBVH2 (tn : ℕ) : Bool := decide (tn / 2 ^ 29 % 2 = 1)

def offsetOf (tn : ℕ) : ℕ := tn % 2 ^ 29

def Words.setNode (w : Words) (nodeIndex : ℕ) (axis : Fin 3) (bvh2 : Bool) (index : ℕ) (lo hi : Extended ℚ) : Words :=
  ((w.set nodeIndex (.bits (nodeWord axis bvh2 index))).set (nodeIndex + 1) (.float lo)).set (nodeIndex + 2) (.float hi)

def createNode (tempTree : Words) (nodeIndex left right : ℕ) : Words :=
  (tempTree.set nodeIndex (.bits (nodeWord 3 false left))).set (nodeIndex + 1) (.bits (u32 (right - left)))

/-! ### Building -/

def bound (primBound : List AABox) (obj : ℕ) : AABox := primBound.getD obj ⟨0, 0⟩

structure Part where
  indices : ℕ → ℕ
  clipL : Extended ℚ
  clipR : Extended ℚ
  nodeL : Extended ℚ
  nodeR : Extended ℚ

/-- The loop that partitions the objects from `i` on, of which there are so many left: where the right part begins,
and the variables after it. -/
def partition (primBound : List AABox) (axis : Fin 3) (split : ℚ) : ℕ → ℕ → Part → ℕ × Part
  | 0, i, s => (i, s)
  | k + 1, i, s =>
    let obj := s.indices i
    let minb := (bound primBound obj).lo axis
    let maxb := (bound primBound obj).hi axis
    let nodeL := min s.nodeL (fin minb)
    let nodeR := max s.nodeR (fin maxb)
    if (minb + maxb) * (1 / 2) ≤ split then
      partition primBound axis split k (i + 1)
        { s with clipL := if s.clipL < fin maxb then fin maxb else s.clipL, nodeL := nodeL, nodeR := nodeR }
    else
      -- to the end of what is left
      partition primBound axis split k i
        { indices := Function.update (Function.update s.indices i (s.indices (i + k))) (i + k) obj, clipL := s.clipL,
          clipR := if fin minb < s.clipR then fin minb else s.clipR, nodeL := nodeL, nodeR := nodeR }

structure Scope where
  left : ℕ
  right : ℕ
  tempTree : Words
  indices : ℕ → ℕ
  gridBox : AABox
  nodeBox : AABound
  nodeIndex : ℕ
  depth : ℕ

structure Loop extends Scope where
  axis : Option (Fin 3)
  split : Option ℚ
  prevClip : Option (Extended ℚ)
  wasLeft : Bool

/-- The tree and the indices, or an exception; `none` where the calls take more steps than allowed. -/
abbrev Built := Option (Except String (Words × (ℕ → ℕ)))

namespace Loop
variable (s : Loop)

def leaf : Built := some (.ok (createNode s.tempTree s.nodeIndex s.left s.right, s.indices))

def stuck (axis : Fin 3) (split : ℚ) : Bool :=
  decide (s.axis = some axis) && s.split.any fun prevSplit => fuzzyEq prevSplit split

def cut (axis : Fin 3) (part : Part) : Scope :=
  { s.toScope with
    tempTree := s.tempTree.allocate.setNode s.nodeIndex axis true s.tempTree.size part.nodeL part.nodeR
    indices := part.indices
    nodeBox := ⟨Function.update s.nodeBox.lo axis part.nodeL, Function.update s.nodeBox.hi axis part.nodeR⟩
    nodeIndex := s.tempTree.size
    depth := s.depth + 1 }

def allLeft (axis : Fin 3) (split : ℚ) (part : Part) : Loop :=
  { s with
    indices := part.indices
    gridBox := ⟨s.gridBox.lo, Function.update s.gridBox.hi axis split⟩
    axis := some axis
    split := some split
    prevClip := if part.clipL ≤ fin split then some part.clipL else none
    wasLeft := if part.clipL ≤ fin split then true else s.wasLeft }

def allRight (axis : Fin 3) (split : ℚ) (part : Part) : Loop :=
  { s with
    indices := part.indices
    gridBox := ⟨Function.update s.gridBox.lo axis split, s.gridBox.hi⟩
    axis := some axis
    split := some split
    prevClip := if fin split ≤ part.clipR then some part.clipR else none
    wasLeft := if fin split ≤ part.clipR then false else s.wasLeft }

def commit : Loop :=
  match s.axis, s.prevClip with
  | some prevAxis, some prevClip =>
    { s with
      tempTree :=
        if s.wasLeft then
          s.tempTree.allocate.setNode s.nodeIndex prevAxis false s.tempTree.size prevClip ⊤
        else s.tempTree.allocate.setNode s.nodeIndex prevAxis false (s.tempTree.size - 3) ⊥ prevClip
      nodeIndex := s.tempTree.size
      depth := s.depth + 1 }
  | _, _ => s

def childrenAllocated (right : ℕ) : Words :=
  let withLeft := if right - s.left > 0 then s.tempTree.allocate else s.tempTree
  if s.right - right > 0 then withLeft.allocate else withLeft

def childIndex (right : ℕ) : ℕ := if right - s.left > 0 then s.tempTree.size else s.tempTree.size - 3

def leftChild (axis : Fin 3) (split : ℚ) (right : ℕ) (part : Part) : Scope :=
  { s.toScope with
    right := right
    tempTree := (s.childrenAllocated right).setNode s.nodeIndex axis false (s.childIndex right) part.clipL part.clipR
    indices := part.indices
    gridBox := ⟨s.gridBox.lo, Function.update s.gridBox.hi axis split⟩
    nodeBox := ⟨s.nodeBox.lo, Function.update s.nodeBox.hi axis part.clipL⟩
    nodeIndex := s.childIndex right
    depth := s.depth + 1 }

def rightChild (axis : Fin 3) (split : ℚ) (right : ℕ) (part : Part) (tempTree : Words) (indices : ℕ → ℕ) : Scope :=
  { s.toScope with
    left := right
    tempTree := tempTree
    indices := indices
    gridBox := ⟨Function.update s.gridBox.lo axis split, s.gridBox.hi⟩
    nodeBox := ⟨Function.update s.nodeBox.lo axis part.clipR, s.nodeBox.hi⟩
    nodeIndex := s.childIndex right + 3
    depth := s.depth + 1 }

end Loop

def callIf (c : Bool) (call : Built) (tempTree : Words) (indices : ℕ → ℕ) : Built :=
  if c then call else some (.ok (tempTree, indices))

def enter (loop : Loop → Built) (maxPrims : ℤ) (c : Scope) : Built :=
  if ((c.right - c.left : ℕ) : ℤ) ≤ maxPrims ∨ MAX_STACK_SIZE ≤ c.depth then
    some (.ok (createNode c.tempTree c.nodeIndex c.left c.right, c.indices))
  else loop { c with axis := none, split := none, prevClip := none, wasLeft := true }

def subdivideLoop (primBound : List AABox) (maxPrims : ℤ) : ℕ → Loop → Built
  | 0, _ => none
  | fuel + 1, s =>
    let d : Vector3 := fun i => s.gridBox.hi i - s.gridBox.lo i
    if ∃ i, d i < 0 then some (.error "negative node extents")
    else if ∃ i, s.nodeBox.hi i < fin (s.gridBox.lo i) ∨ fin (s.gridBox.hi i) < s.nodeBox.lo i then
      some (.error "invalid node overlap")
    else
      let axis := primaryAxis d
      let split := 1 / 2 * (s.gridBox.lo axis + s.gridBox.hi axis)
      let r := partition primBound axis split (s.right - s.left) s.left ⟨s.indices, ⊥, ⊤, ⊤, ⊥⟩
      if s.nodeBox.lo axis < r.2.nodeL ∧ r.2.nodeR < s.nodeBox.hi axis ∧
          scale (5452595 / 4194304) (sub r.2.nodeR r.2.nodeL) < sub (s.nodeBox.hi axis) (s.nodeBox.lo axis) then
        enter (subdivideLoop primBound maxPrims fuel) maxPrims (s.cut axis r.2)
      else if r.1 = s.right then
        if s.stuck axis split then { s with indices := r.2.indices }.leaf
        else subdivideLoop primBound maxPrims fuel (s.allLeft axis split r.2)
      else if r.1 ≤ s.left then
        if s.stuck axis split then { s with indices := r.2.indices }.leaf
        else subdivideLoop primBound maxPrims fuel (s.allRight axis split r.2)
      else
        match callIf (decide (r.1 - s.left > 0))
            (enter (subdivideLoop primBound maxPrims fuel) maxPrims (s.commit.leftChild axis split r.1 r.2))
            (s.commit.leftChild axis split r.1 r.2).tempTree r.2.indices with
        | some (.ok left) =>
          callIf (decide (s.right - r.1 > 0))
            (enter (subdivideLoop primBound maxPrims fuel) maxPrims
              (s.commit.rightChild axis split r.1 r.2 left.1 left.2)) left.1 left.2
        | other => other

structure BIH where
  tree : Words
  objects : List ℕ
  bounds : AABox

def emptyTree : Words := ⟨3, Function.update (fun _ => .bits 0) 0 (.bits (3 <<< 30))⟩

/-- `BIH::build` over the bounds of the primitives, of which there is at least one. -/
def build (fuel : ℕ) (first : AABox) (rest : List AABox) (leafSize : ℕ) : Option (Except String BIH) :=
  let primBound := first :: rest
  let bounds := primBound.foldl AABox.merge first
  let maxPrims := toInt32 leafSize
  (enter (subdivideLoop primBound maxPrims fuel) maxPrims
    { left := 0, right := primBound.length, tempTree := emptyTree, indices := id, gridBox := bounds,
      nodeBox := ⟨fun i => fin (bounds.lo i), fun i => fin (bounds.hi i)⟩, nodeIndex := 0, depth := 1 }).map fun r =>
    r.map fun built => ⟨built.1, (List.range primBound.length).map built.2, bounds⟩

/-! ### Walking -/

inductive NodeView where
  | inner (axis : Fin 3) (clipL clipR : Extended ℚ) (offset : ℕ)
  | bvh2 (axis : Fin 3) (lo hi : Extended ℚ) (offset : ℕ)
  | leaf (objects : List ℕ)
  | odd

namespace BIH
variable (bih : BIH)

def objectsFrom (offset : ℕ) : ℕ → Option (List ℕ)
  | 0 => some []
  | n + 1 => (bih.objects[offset]?).bind fun o => (objectsFrom (offset + 1) n).map (o :: ·)

def view (node : ℕ) : Option NodeView :=
  match bih.tree.get? node with
  | some (.bits tn) =>
    if axisOf tn < 3 then
      match bih.tree.get? (node + 1), bih.tree.get? (node + 2) with
      | some (.float lo), some (.float hi) =>
        some (if isBVH2 tn then .bvh2 (Fin.ofNat 3 (axisOf tn)) lo hi (offsetOf tn)
          else .inner (Fin.ofNat 3 (axisOf tn)) lo hi (offsetOf tn))
      | _, _ => none
    else if isBVH2 tn then some .odd
    else
      match bih.tree.get? (node + 1) with
      | some (.bits n) => (bih.objectsFrom (offsetOf tn) (toInt32 n).toNat).map .leaf
      | _ => none
  | _ => none

end BIH

structure StackNode where
  node : ℕ
  tnear : Extended ℚ
  tfar : Extended ℚ

/-- The variables of a walk. `nodes` are those it has come to, `calls` the objects of its callbacks. -/
structure Walk where
  node : ℕ
  stack : List StackNode
  intervalMin : Extended ℚ
  intervalMax : Extended ℚ
  maxDist : Extended ℚ
  nodes : List ℕ
  calls : List ℕ

/-- What comes after a node; a fault is a read outside the tree or a write beyond the stack. -/
inductive Next where
  | at (w : Walk)
  | done (w : Walk)
  | fault

namespace Walk

def push (w : Walk) (entry : StackNode) : Next :=
  if w.stack.length < MAX_STACK_SIZE then .at { w with stack := entry :: w.stack } else .fault

end Walk

/-- The loop of a walk; `none` where the steps do not suffice, and a fault is `some none`. -/
def run (step : Walk → Next) : ℕ → Walk → Option (Option Walk)
  | 0, _ => none
  | fuel + 1, w =>
    match step { w with nodes := w.nodes ++ [w.node] } with
    | .at w' => run step fuel w'
    | .done w' => some (some w')
    | .fault => some none

namespace BIH
variable (bih : BIH)

/-! #### `intersectPoint` -/

def pointPop (w : Walk) : Next :=
  match w.stack with
  | [] => .done w
  | s :: rest => .at { w with node := s.node, stack := rest }

def pointStep (p : Vector3) (w : Walk) : Next :=
  match bih.view w.node with
  | none => .fault
  | some .odd => .done w
  | some (.leaf objects) => pointPop { w with calls := w.calls ++ objects }
  | some (.inner axis tl tr offset) =>
    if tl < fin (p axis) ∧ fin (p axis) < tr then pointPop w
    else if tl < fin (p axis) then .at { w with node := offset + 3 }
    else if fin (p axis) < tr then .at { w with node := offset }
    else { w with node := offset }.push ⟨offset + 3, ⊥, ⊥⟩
  | some (.bvh2 axis tl tr offset) =>
    if fin (p axis) < tl ∨ tr < fin (p axis) then pointPop { w with node := offset }
    else .at { w with node := offset }

def intersectPoint (fuel : ℕ) (p : Vector3) : Option (Option Walk) :=
  if bih.bounds.contains p then run (bih.pointStep p) fuel ⟨0, [], ⊥, ⊥, ⊥, [], []⟩
  else some (some ⟨0, [], ⊥, ⊥, ⊥, [], []⟩)

/-! #### `intersectRay` -/

structure Ray where
  org : Vector3
  dir : Vector3

def Ray.invDir (r : Ray) : Vector3 := fun i => 1 / r.dir i

/-- The callback is given the object and `maxDist`, and says whether there is a hit, and a new `maxDist`. -/
abbrev Callback := ℕ → Extended ℚ → Bool × Extended ℚ

/-- One axis of the interval in which the ray is inside the bounds; `none` is an early return. -/
def clipAxis (r : Ray) (maxDist : Extended ℚ) (interval : Extended ℚ × Extended ℚ) (i : Fin 3) :
    Option (Extended ℚ × Extended ℚ) :=
  if fuzzyEq (r.dir i) 0 then some interval
  else
    let ta := (bih.bounds.lo i - r.org i) * r.invDir i
    let tb := (bih.bounds.hi i - r.org i) * r.invDir i
    let t1 := if tb < ta then tb else ta
    let t2 := if tb < ta then ta else tb
    let intervalMin := if interval.1 < fin t1 then fin t1 else interval.1
    let intervalMax := if fin t2 < interval.2 ∨ interval.2 < fin 0 then fin t2 else interval.2
    if intervalMax ≤ fin 0 ∨ maxDist ≤ intervalMin then none else some (intervalMin, intervalMax)

def rayPop (w : Walk) : List StackNode → Next
  | [] => .done { w with stack := [] }
  | s :: rest =>
    if w.maxDist < s.tnear then rayPop { w with intervalMin := s.tnear } rest
    else .at { w with node := s.node, stack := rest, intervalMin := s.tnear, intervalMax := s.tfar }

def leafLoop (callback : Callback) (stopAtFirstHit : Bool) : List ℕ → Walk → Bool × Walk
  | [], w => (false, w)
  | o :: rest, w =>
    let answer := callback o w.maxDist
    let called := { w with calls := w.calls ++ [o], maxDist := answer.2 }
    if stopAtFirstHit && answer.1 then (true, called) else leafLoop callback stopAtFirstHit rest called

def rayStep (r : Ray) (callback : Callback) (stopAtFirstHit : Bool) (w : Walk) : Next :=
  match bih.view w.node with
  | none => .fault
  | some .odd => .done w
  | some (.leaf objects) =>
    let result := leafLoop callback stopAtFirstHit objects w
    if result.1 then .done result.2 else rayPop result.2 result.2.stack
  | some (.inner axis clipL clipR offset) =>
    -- the sign of the direction tells which child is in front
    let negative := decide (r.dir axis < 0)
    let tf := along (r.org axis) (r.invDir axis) (if negative then clipR else clipL)
    let tb := along (r.org axis) (r.invDir axis) (if negative then clipL else clipR)
    let front := if negative then offset + 3 else offset
    let back := if negative then offset else offset + 3
    if tf < w.intervalMin ∧ w.intervalMax < tb then rayPop w w.stack
    else if tf < w.intervalMin then
      .at { w with node := back, intervalMin := if w.intervalMin ≤ tb then tb else w.intervalMin }
    else if w.intervalMax < tb then
      .at { w with node := front, intervalMax := if tf ≤ w.intervalMax then tf else w.intervalMax }
    else
      { w with node := front, intervalMax := if tf ≤ w.intervalMax then tf else w.intervalMax }.push
        ⟨back, if w.intervalMin ≤ tb then tb else w.intervalMin, w.intervalMax⟩
  | some (.bvh2 axis lo hi offset) =>
    let negative := decide (r.dir axis < 0)
    let tf := along (r.org axis) (r.invDir axis) (if negative then hi else lo)
    let tb := along (r.org axis) (r.invDir axis) (if negative then lo else hi)
    let inside := { w with
      node := offset
      intervalMin := if w.intervalMin ≤ tf then tf else w.intervalMin
      intervalMax := if tb ≤ w.intervalMax then tb else w.intervalMax }
    if inside.intervalMax < inside.intervalMin then rayPop inside inside.stack else .at inside

def intersectRay (fuel : ℕ) (r : Ray) (callback : Callback) (maxDist : Extended ℚ) (stopAtFirstHit : Bool) :
    Option (Option Walk) :=
  let returned : Walk := ⟨0, [], ⊥, ⊥, maxDist, [], []⟩
  match [0, 1, 2].foldlM (bih.clipAxis r maxDist) (fin (-1), fin (-1)) with
  | none => some (some returned)
  | some interval =>
    if interval.2 < interval.1 then some (some returned)
    else
      run (bih.rayStep r callback stopAtFirstHit) fuel
        ⟨0, [], max interval.1 (fin 0), min interval.2 maxDist, maxDist, [], []⟩

end BIH

end HysteriaCore.Collision

import HysteriaCore.Battleground.Queue
import Mathlib.Algebra.Ring.Nat

/-!
# Filling a battleground from both queues

`FillPlayersToBG` fills a selection pool for each side and balances the two by kicking groups and
filling up again. `deref` gives the groups that the queues point to.
-/

namespace HysteriaCore.Battleground

/-! ### Selection pools -/

namespace SelectionPool

variable (deref : ℕ → GroupQueueInfo)

def sizeOf (g : ℕ) : ℕ := (deref g).players.card

/-- The place of the group to kick, and whether its size is proper: the last one that differs by
at most one from `size`, or else the last of the largest ones. -/
def groupToKick (size : ℕ) (groups : List ℕ) : ℕ × Bool :=
  let found := groups.zipIdx.foldl
    (fun (kick : ℕ × ℕ × Bool) itr =>
      if ((sizeOf deref itr.1 : ℤ) - size).natAbs ≤ 1 then (itr.2, sizeOf deref itr.1, true)
      else if !kick.2.2 && kick.2.1 ≤ sizeOf deref itr.1 then
        (itr.2, sizeOf deref itr.1, kick.2.2)
      else kick)
    (0, (groups.head?.map (sizeOf deref)).getD 0, false)
  (found.1, found.2.2)

/-- `KickGroup`; true if more players were kicked than requested. -/
def kickGroup (pool : SelectionPool) (size : ℕ) : SelectionPool × Bool :=
  match pool.selectedGroups with
  | [] => (pool, false)
  | first :: _ =>
    let found := groupToKick deref size pool.selectedGroups
    let ginfo := pool.selectedGroups.getD found.1 first
    let pool : SelectionPool :=
      ⟨pool.selectedGroups.eraseIdx found.1, pool.playerCount - sizeOf deref ginfo⟩
    if found.2 then (pool, false) else (pool, decide (size < sizeOf deref ginfo))

/-- The loop that adds groups up to `desiredCount`: the groups from the iterator on, and the pool. -/
def fill (desiredCount : ℕ) : List ℕ → SelectionPool → List ℕ × SelectionPool
  | [], pool => ([], pool)
  | g :: rest, pool =>
    let added := pool.addGroup g (deref g) desiredCount
    if added.2 then fill desiredCount rest added.1 else (g :: rest, added.1)

end SelectionPool

/-! ### FillPlayersToBG -/

/-- One side while the pools are filled: its iterator, as the groups from it on, and its pool. -/
structure Side where
  itr : List ℕ
  pool : SelectionPool

namespace Side

variable (deref : ℕ → GroupQueueInfo)

def fill (desiredCount : ℕ) (side : Side) : Side :=
  let filled := side.pool.fill deref desiredCount side.itr
  ⟨filled.1, filled.2⟩

def diff (free : ℕ) (side : Side) : ℤ := free - side.pool.playerCount

def rebalance (size desiredCount : ℕ) (side : Side) : Side :=
  let kicked := side.pool.kickGroup deref size
  if kicked.2 then fill deref desiredCount { side with pool := kicked.1 }
  else { side with pool := kicked.1 }

end Side

inductive InvitationType where
  | noBalance
  | balanced
  | even
  | other (invType : ℤ)
  deriving DecidableEq, Repr

namespace InvitationType

def caseDefault (_invDiff : ℕ) : Option ℕ := none

def caseEven (_invDiff : ℕ) : Option ℕ := caseDefault 0

def caseBalanced (_invDiff : ℕ) : Option ℕ := caseEven 1

/-- The switch on the configuration: `invDiff` behind it, `none` where it returns. -/
def invDiff : InvitationType → Option ℕ
  | .noBalance => none
  | .balanced => caseBalanced 0
  | .even => caseEven 0
  | .other _ => caseDefault 0

def allowed : InvitationType → ℕ
  | .balanced => 1
  | _ => 0

end InvitationType

structure Filling where
  ali : Side
  horde : Side

section Fill

variable (deref : ℕ → GroupQueueInfo) (aliFree hordeFree : ℕ)

def balance (invDiff : ℕ) : ℕ → Filling → Option Filling
  | 0, _ => none
  | fuel + 1, s =>
    let aliDiff := s.ali.diff aliFree
    let hordeDiff := s.horde.diff hordeFree
    if invDiff < (aliDiff - hordeDiff).natAbs ∧
        (0 < s.horde.pool.playerCount ∨ 0 < s.ali.pool.playerCount) then
      if aliDiff < hordeDiff then
        if s.ali.pool.playerCount = 0 then some s
        else
          let desired := if hordeDiff ≤ aliFree then (aliFree - hordeDiff).toNat else 0
          balance invDiff fuel
            { s with ali := s.ali.rebalance deref (hordeDiff - aliDiff).toNat desired }
      else
        if s.horde.pool.playerCount = 0 then some s
        else
          let desired := if aliDiff ≤ hordeFree then (hordeFree - aliDiff).toNat else 0
          balance invDiff fuel
            { s with horde := s.horde.rebalance deref (aliDiff - hordeDiff).toNat desired }
    else some s

/-- `FillPlayersToBG` for the two normal queues of a bracket. `testing` is `isTesting()`, `random`
the random battleground. -/
def fillPlayersToBG (testing random : Bool) (invType : InvitationType) (aliQueue hordeQueue : List ℕ)
    (fuel : ℕ) : Option Filling :=
  let s : Filling := ⟨⟨aliQueue, .init⟩, ⟨hordeQueue, .init⟩⟩
  if !testing && !random &&
      (aliFree > hordeFree && aliQueue.isEmpty || hordeFree > aliFree && hordeQueue.isEmpty) then
    some s
  else
    let s : Filling := ⟨s.ali.fill deref aliFree, s.horde.fill deref hordeFree⟩
    if random then some ⟨s.ali.fill deref 100, s.horde.fill deref 100⟩
    else
      match invType.invDiff with
      | none => some s
      | some invDiff => balance deref aliFree hordeFree invDiff fuel s

end Fill

/-! ### What the pools count -/

section Counting

variable {deref : ℕ → GroupQueueInfo}

/-- The count is the number of players of the selected groups, and at most `free`. -/
structure Counted (deref : ℕ → GroupQueueInfo) (free : ℕ) (pool : SelectionPool) : Prop where
  sum : pool.playerCount = (pool.selectedGroups.map (SelectionPool.sizeOf deref)).sum
  le : pool.playerCount ≤ free

theorem Counted.init (free : ℕ) : Counted deref free .init := ⟨rfl, Nat.zero_le free⟩

theorem Counted.addGroup {free desired : ℕ} {pool : SelectionPool} (h : Counted deref free pool)
    (hdesired : desired ≤ free) (g : ℕ) :
    Counted deref free (pool.addGroup g (deref g) desired).1 := by
  rw [SelectionPool.addGroup]
  split
  · rename_i hfits
    refine ⟨?_, hfits.2.trans hdesired⟩
    rw [List.map_append, List.sum_append, ← h.sum]
    simp [SelectionPool.sizeOf]
  · exact h

theorem addGroup_stop {pool : SelectionPool} {g : ℕ} {ginfo : GroupQueueInfo} {desired : ℕ}
    (h : ¬(pool.addGroup g ginfo desired).2 = true) :
    (pool.addGroup g ginfo desired).1 = pool ∧ desired ≤ pool.playerCount := by
  rw [SelectionPool.addGroup] at h ⊢
  split at h
  · exact absurd rfl h
  · rename_i hno
    rw [if_neg hno]
    simp only [decide_eq_true_eq] at h
    exact ⟨rfl, by omega⟩

theorem fill_spec {free desired : ℕ} (hdesired : desired ≤ free) (itr : List ℕ)
    (pool : SelectionPool) (h : Counted deref free pool) : Counted deref free (pool.fill deref desired itr).2 := by
  induction itr generalizing pool with
  | nil => exact h
  | cons g rest ih =>
    rw [SelectionPool.fill]
    split
    · exact ih _ (h.addGroup hdesired g)
    · rename_i hstop
      rw [(addGroup_stop hstop).1]
      exact h

/-! ### What the call returns -/

def Balanced (aliFree hordeFree invDiff : ℕ) (s : Filling) : Prop :=
  s.ali.pool.playerCount = 0 ∨ s.horde.pool.playerCount = 0 ∨
    (s.ali.diff aliFree - s.horde.diff hordeFree).natAbs ≤ invDiff

structure Filled (deref : ℕ → GroupQueueInfo) (aliFree hordeFree : ℕ) (s : Filling) : Prop where
  ali : Counted deref aliFree s.ali.pool
  horde : Counted deref hordeFree s.horde.pool

def fit (deref : ℕ → GroupQueueInfo) (free taken g : ℕ) : ℕ :=
  if (deref g).isInvitedToBGInstanceGUID = 0 ∧ taken + SelectionPool.sizeOf deref g ≤ free then
    taken + SelectionPool.sizeOf deref g
  else taken

def firstFit (deref : ℕ → GroupQueueInfo) (free : ℕ) (queue : List ℕ) : ℕ :=
  queue.foldl (fit deref free) 0

theorem fit_full {free taken : ℕ} (h : free ≤ taken) (queue : List ℕ) :
    queue.foldl (fit deref free) taken = taken := by
  induction queue with
  | nil => rfl
  | cons g rest ih =>
    have hsame : fit deref free taken g = taken := by
      rw [fit]
      split <;> omega
    rw [List.foldl_cons, hsame]
    exact ih

theorem addGroup_count (pool : SelectionPool) (g free : ℕ) :
    (pool.addGroup g (deref g) free).1.playerCount = fit deref free pool.playerCount g := by
  rw [SelectionPool.addGroup, fit, SelectionPool.sizeOf]
  split <;> rfl

theorem fill_count (free : ℕ) (itr : List ℕ) (pool : SelectionPool) :
    (pool.fill deref free itr).2.playerCount = itr.foldl (fit deref free) pool.playerCount := by
  induction itr generalizing pool with
  | nil => rfl
  | cons g rest ih =>
    have hadded := @addGroup_count deref pool g free
    rw [SelectionPool.fill, List.foldl_cons, ← hadded]
    split
    · exact ih _
    · rename_i hstop
      obtain ⟨hsame, hfull⟩ := addGroup_stop hstop
      rw [hsame, fit_full hfull]

def FillsBalanced (deref : ℕ → GroupQueueInfo) (aliFree hordeFree : ℕ) (testing random : Bool)
    (invType : InvitationType) (aliQueue hordeQueue : List ℕ) : Prop :=
  ∃ s, (∃ enough, ∀ fuel, enough ≤ fuel →
      fillPlayersToBG deref aliFree hordeFree testing random invType aliQueue hordeQueue fuel = some s) ∧
    Filled deref aliFree hordeFree s ∧ Balanced aliFree hordeFree invType.allowed s

theorem invDiff_none (invType : InvitationType) : invType.invDiff = none := by
  cases invType <;> rfl

theorem fillPlayersToBG_first (aliFree hordeFree : ℕ) (testing : Bool) (invType : InvitationType)
    (aliQueue hordeQueue : List ℕ) :
    ∃ s, (∀ fuel, fillPlayersToBG deref aliFree hordeFree testing false invType aliQueue hordeQueue
        fuel = some s) ∧
      Filled deref aliFree hordeFree s ∧
      (s.ali.pool.playerCount = firstFit deref aliFree aliQueue ∧
          s.horde.pool.playerCount = firstFit deref hordeFree hordeQueue ∨
        s.ali.pool.playerCount = 0 ∧
          (firstFit deref aliFree aliQueue = 0 ∨ firstFit deref hordeFree hordeQueue = 0)) := by
  by_cases hquick : (!testing && !false && (aliFree > hordeFree && aliQueue.isEmpty ||
      hordeFree > aliFree && hordeQueue.isEmpty)) = true
  · refine ⟨⟨⟨aliQueue, .init⟩, ⟨hordeQueue, .init⟩⟩, fun fuel => ?_,
      ⟨Counted.init aliFree, Counted.init hordeFree⟩, .inr ⟨rfl, ?_⟩⟩
    · rw [fillPlayersToBG]
      exact if_pos hquick
    · simp only [Bool.and_eq_true, Bool.or_eq_true, List.isEmpty_iff] at hquick
      obtain ⟨-, ⟨-, rfl⟩ | ⟨-, rfl⟩⟩ := hquick
      · exact .inl rfl
      · exact .inr rfl
  · refine ⟨⟨Side.fill deref aliFree ⟨aliQueue, .init⟩, Side.fill deref hordeFree ⟨hordeQueue, .init⟩⟩,
      fun fuel => ?_, ⟨fill_spec le_rfl _ _ (.init aliFree),
        fill_spec le_rfl _ _ (.init hordeFree)⟩, .inl ⟨fill_count _ _ _, fill_count _ _ _⟩⟩
    rw [fillPlayersToBG]
    dsimp only
    rw [if_neg hquick, if_neg Bool.false_ne_true, invDiff_none]

theorem fills_balanced_iff (deref : ℕ → GroupQueueInfo) (aliFree hordeFree : ℕ) (testing : Bool)
    (invType : InvitationType) (aliQueue hordeQueue : List ℕ) :
    FillsBalanced deref aliFree hordeFree testing false invType aliQueue hordeQueue ↔
      firstFit deref aliFree aliQueue = 0 ∨ firstFit deref hordeFree hordeQueue = 0 ∨
        (((aliFree : ℤ) - firstFit deref aliFree aliQueue) -
          (hordeFree - firstFit deref hordeFree hordeQueue)).natAbs ≤ invType.allowed := by
  obtain ⟨s, hrun, hfilled, hcount⟩ := @fillPlayersToBG_first deref aliFree hordeFree testing
    invType aliQueue hordeQueue
  have hmeets : FillsBalanced deref aliFree hordeFree testing false invType aliQueue hordeQueue ↔
      Balanced aliFree hordeFree invType.allowed s := by
    constructor
    · rintro ⟨s', ⟨enough, hrun'⟩, -, hbalanced⟩
      have hsame := (hrun enough).symm.trans (hrun' enough le_rfl)
      rwa [Option.some.inj hsame]
    · intro hbalanced
      exact ⟨s, ⟨0, fun fuel _ => hrun fuel⟩, hfilled, hbalanced⟩
  rw [hmeets, Balanced, Side.diff, Side.diff]
  rcases hcount with ⟨hali, hhorde⟩ | ⟨hali, hzero⟩
  · rw [hali, hhorde]
  · constructor
    · intro _
      exact hzero.imp_right .inl
    · intro _
      exact .inl hali

def fiveToOne (g : ℕ) : GroupQueueInfo where
  players := if g = 0 then {1, 2, 3, 4, 5} else {6}
  teamId := if g = 0 then .alliance else .horde
  isRated := false
  joinTime := 0
  isInvitedToBGInstanceGUID := 0
  bracketId := 0
  groupType := if g = 0 then .normalAlliance else .normalHorde

theorem five_to_one :
    ¬FillsBalanced fiveToOne 10 10 false false .balanced [0] [1] ∧
      ¬FillsBalanced fiveToOne 10 10 false false .even [0] [1] := by
  have hfit : firstFit fiveToOne 10 [0] = 5 ∧ firstFit fiveToOne 10 [1] = 1 := by decide
  have hboth : ∀ invType : InvitationType, invType.allowed ≤ 1 →
      ¬FillsBalanced fiveToOne 10 10 false false invType [0] [1] := by
    rintro invType hallowed ⟨s, ⟨enough, hrun⟩, -, hbalanced⟩
    obtain ⟨s', hrun', -, hcount⟩ :=
      @fillPlayersToBG_first fiveToOne 10 10 false invType [0] [1]
    obtain rfl := Option.some.inj ((hrun enough le_rfl).symm.trans (hrun' enough))
    rw [hfit.1, hfit.2] at hcount
    rw [Balanced, Side.diff, Side.diff] at hbalanced
    omega
  exact ⟨hboth .balanced le_rfl, hboth .even (Nat.zero_le 1)⟩

end Counting

end HysteriaCore.Battleground

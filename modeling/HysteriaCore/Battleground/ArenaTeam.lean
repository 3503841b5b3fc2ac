import HysteriaCore.Lib.KeyedList
import HysteriaCore.Lib.Runs
import HysteriaCore.Lib.Words
import Mathlib.Data.UInt

/-!
# Ratings of arena team members (ArenaTeam.cpp)

`MemberWon` and `MemberLost` change the matchmaker rating of a member by a clamped amount. The
ratings are uint16, the changes int32; what `GetRatingMod` computes in floating point is a parameter.
-/

namespace HysteriaCore.Battleground.Arena
open Lib

def ofUInt16 (x : UInt16) : ℤ := (x.toNat : ℤ)

def addAssign (x : UInt16) (mod : ℤ) : UInt16 := UInt16.ofInt (toInt32 (ofUInt16 x + mod))

structure ArenaTeamMember where
  guid : ℕ
  weekGames : UInt16
  weekWins : UInt16
  seasonGames : UInt16
  seasonWins : UInt16
  personalRating : UInt16
  matchMakerRating : UInt16
  maxMMR : UInt16
  deriving DecidableEq

namespace ArenaTeamMember
variable (m : ArenaTeamMember)

def modifyPersonalRating (mod : ℤ) : ArenaTeamMember :=
  { m with personalRating :=
      if toInt32 (ofUInt16 m.personalRating + mod) < 0 then 0 else addAssign m.personalRating mod }

def clampDrop (maxAllowedDrop mod : ℤ) : ℤ :=
  if mod < 0 then
    min (max (toInt32 (-toInt32 (toInt32 (ofUInt16 m.matchMakerRating - ofUInt16 m.maxMMR) + maxAllowedDrop))) mod) 0
  else mod

def modifyMatchmakerRating (maxAllowedDrop mod : ℤ) : ArenaTeamMember :=
  let mod := m.clampDrop maxAllowedDrop mod
  let rating :=
    if toInt32 (ofUInt16 m.matchMakerRating + mod) < 0 then 0 else addAssign m.matchMakerRating mod
  { m with matchMakerRating := rating, maxMMR := if m.maxMMR < rating then rating else m.maxMMR }

end ArenaTeamMember

structure ArenaTeam where
  members : KeyedList ArenaTeamMember.guid
  rating : UInt16

section Calls
variable (ratingMod : UInt16 → ℕ → Bool → ℤ) (maxAllowedDrop : ℤ)

def lost (against : ℕ) (change : ℤ) (m : ArenaTeamMember) : ArenaTeamMember :=
  let m := m.modifyPersonalRating (ratingMod m.personalRating against false)
  let m := m.modifyMatchmakerRating maxAllowedDrop change
  { m with weekGames := m.weekGames + 1, seasonGames := m.seasonGames + 1 }

/-- What `MemberWon` does to the member: his matchmaker rating does not go over the team rating. -/
def won (rating : UInt16) (against : ℕ) (change : ℤ) (m : ArenaTeamMember) : ArenaTeamMember :=
  let m := m.modifyPersonalRating (ratingMod m.personalRating against true)
  let m :=
    if m.matchMakerRating < rating then
      m.modifyMatchmakerRating maxAllowedDrop
        (min change (toInt32 (ofUInt16 rating - ofUInt16 m.matchMakerRating)))
    else m
  { m with
    weekGames := m.weekGames + 1
    seasonGames := m.seasonGames + 1
    seasonWins := m.seasonWins + 1
    weekWins := m.weekWins + 1 }

theorem lost_guid (against : ℕ) (change : ℤ) (m : ArenaTeamMember) :
    (lost ratingMod maxAllowedDrop against change m).guid = m.guid := by
  rw [lost]
  rfl

theorem won_guid (rating : UInt16) (against : ℕ) (change : ℤ) (m : ArenaTeamMember) :
    (won ratingMod maxAllowedDrop rating against change m).guid = m.guid := by
  rw [won]
  dsimp only
  split <;> rfl

end Calls

/-- `finishGame` is a new `Stats.Rating`, from a game of the team. -/
inductive Event where
  | memberLost (guid against : ℕ) (change : ℤ)
  | memberWon (guid against : ℕ) (change : ℤ)
  | finishGame (rating : UInt16)

namespace ArenaTeam
variable (ratingMod : UInt16 → ℕ → Bool → ℤ) (maxAllowedDrop : ℤ)

def next (t : ArenaTeam) : Event → ArenaTeam
  | .memberLost guid against change =>
    { t with
      members := t.members.adjust guid (lost ratingMod maxAllowedDrop against change)
        (lost_guid ratingMod maxAllowedDrop against change) }
  | .memberWon guid against change =>
    { t with
      members := t.members.adjust guid (won ratingMod maxAllowedDrop t.rating against change)
        (won_guid ratingMod maxAllowedDrop t.rating against change) }
  | .finishGame rating => { t with rating := rating }

def possible (t : ArenaTeam) : Event → Prop
  | .memberLost guid _ change => -2 ^ 31 ≤ change ∧ change < 2 ^ 31 ∧
    ∀ m ∈ t.members.rows, m.guid = guid → ofUInt16 m.matchMakerRating + change < 2 ^ 16
  | .memberWon _ _ change => -2 ^ 31 ≤ change ∧ change < 2 ^ 31
  | .finishGame _ => True

instance (t : ArenaTeam) : ∀ e, Decidable (t.possible e)
  | .memberLost .. => inferInstanceAs (Decidable (_ ∧ _ ∧ _))
  | .memberWon .. => inferInstanceAs (Decidable (_ ∧ _))
  | .finishGame _ => isTrue trivial

def step (t : ArenaTeam) (e : Event) : Option ArenaTeam :=
  guarded (t.possible e) (t.next ratingMod maxAllowedDrop e)

/-- The members as `AddMember` and `LoadMembersFromDB` make them, whatever the stored maximum is. -/
def Started (t : ArenaTeam) : Prop :=
  ∀ m ∈ t.members, ∃ storedMax : UInt16, m.maxMMR = max storedMax m.matchMakerRating

end ArenaTeam

/-! ### One call -/

namespace ArenaTeamMember

variable {m : ArenaTeamMember} {maxAllowedDrop mod : ℤ}

theorem ofUInt16_bounds (x : UInt16) : 0 ≤ ofUInt16 x ∧ ofUInt16 x < 2 ^ 16 := by
  have h := x.toNat_lt
  simp only [ofUInt16]
  omega

theorem ofUInt16_addAssign {x : UInt16} (h : 0 ≤ ofUInt16 x + mod) (h' : ofUInt16 x + mod < 2 ^ 16) :
    ofUInt16 (addAssign x mod) = ofUInt16 x + mod := by
  rw [addAssign, toInt32_of_range (by omega) (by omega), ofUInt16, UInt16.ofInt, Int.emod_eq_of_lt h h']
  rw [UInt16.toNat_ofNat_of_lt' (by rw [UInt16.size]; omega), Int.toNat_of_nonneg h]

theorem le_iff (x y : UInt16) : x ≤ y ↔ ofUInt16 x ≤ ofUInt16 y := by
  rw [UInt16.le_iff_toNat_le, ofUInt16, ofUInt16, Int.ofNat_le]

theorem lt_iff (x y : UInt16) : x < y ↔ ofUInt16 x < ofUInt16 y := by
  rw [UInt16.lt_iff_toNat_lt, ofUInt16, ofUInt16, Int.ofNat_lt]

theorem clampDrop_eq (hmax : m.matchMakerRating ≤ m.maxMMR) (hdrop : 0 ≤ maxAllowedDrop)
    (hdrop' : maxAllowedDrop < 2 ^ 31) : m.clampDrop maxAllowedDrop mod =
      if mod < 0 then
        min (max (ofUInt16 m.maxMMR - maxAllowedDrop - ofUInt16 m.matchMakerRating) mod) 0
      else mod := by
  have hr := ofUInt16_bounds m.matchMakerRating
  have hx := ofUInt16_bounds m.maxMMR
  rw [le_iff] at hmax
  rw [clampDrop, toInt32_of_range (x := ofUInt16 m.matchMakerRating - ofUInt16 m.maxMMR) (by omega) (by omega),
    toInt32_of_range (x := _ + maxAllowedDrop) (by omega) (by omega), toInt32_of_range (by omega) (by omega)]
  congr 3
  omega

theorem rating_modify (hmax : m.matchMakerRating ≤ m.maxMMR) (hdrop : 0 ≤ maxAllowedDrop)
    (hdrop' : maxAllowedDrop < 2 ^ 31) (hmod : -2 ^ 31 ≤ mod) (hsmall : ofUInt16 m.matchMakerRating + mod < 2 ^ 16) :
    ofUInt16 (m.modifyMatchmakerRating maxAllowedDrop mod).matchMakerRating =
      max 0 (ofUInt16 m.matchMakerRating + m.clampDrop maxAllowedDrop mod) := by
  have hr := ofUInt16_bounds m.matchMakerRating
  have hclamp : min mod 0 ≤ m.clampDrop maxAllowedDrop mod ∧
      ofUInt16 m.matchMakerRating + m.clampDrop maxAllowedDrop mod < 2 ^ 16 := by
    rw [clampDrop_eq hmax hdrop hdrop']
    split <;> omega
  show ofUInt16 (if toInt32 _ < 0 then 0 else addAssign _ _) = _
  rw [toInt32_of_range (by omega) (by omega)]
  by_cases hneg : ofUInt16 m.matchMakerRating + m.clampDrop maxAllowedDrop mod < 0
  · rw [if_pos hneg, max_eq_left hneg.le]
    rfl
  · rw [if_neg hneg, ofUInt16_addAssign (by omega) hclamp.2, max_eq_right (by omega)]

theorem maxMMR_modify (m : ArenaTeamMember) (maxAllowedDrop mod : ℤ) :
    ofUInt16 (m.modifyMatchmakerRating maxAllowedDrop mod).maxMMR =
      max (ofUInt16 m.maxMMR) (ofUInt16 (m.modifyMatchmakerRating maxAllowedDrop mod).matchMakerRating) := by
  show ofUInt16 (if m.maxMMR < _ then _ else m.maxMMR) = _
  by_cases hlt : m.maxMMR < (m.modifyMatchmakerRating maxAllowedDrop mod).matchMakerRating
  · rw [max_eq_right ((lt_iff _ _).mp hlt).le]
    exact congrArg ofUInt16 (if_pos hlt)
  · rw [max_eq_left (not_lt.mp fun h => hlt ((lt_iff _ _).mpr h))]
    exact congrArg ofUInt16 (if_neg hlt)

theorem modify_bounds (mod : ℤ) (hmax : m.matchMakerRating ≤ m.maxMMR) (hdrop : 0 ≤ maxAllowedDrop)
    (hdrop' : maxAllowedDrop < 2 ^ 31) (hmod : -2 ^ 31 ≤ mod) (hsmall : ofUInt16 m.matchMakerRating + mod < 2 ^ 16) :
    let m' := m.modifyMatchmakerRating maxAllowedDrop mod
    m'.matchMakerRating ≤ m'.maxMMR ∧ m.maxMMR ≤ m'.maxMMR ∧
      min (ofUInt16 m.matchMakerRating) (ofUInt16 m'.maxMMR - maxAllowedDrop) ≤ ofUInt16 m'.matchMakerRating ∧
      (0 ≤ mod → ofUInt16 m'.matchMakerRating = ofUInt16 m.matchMakerRating + mod) ∧
      (mod ≤ 0 → ofUInt16 m'.matchMakerRating ≤ ofUInt16 m.matchMakerRating) := by
  have hr := ofUInt16_bounds m.matchMakerRating
  have hrating := rating_modify hmax hdrop hdrop' hmod hsmall
  have hnew := maxMMR_modify m maxAllowedDrop mod
  rw [clampDrop_eq hmax hdrop hdrop'] at hrating
  simp only [le_iff] at hmax ⊢
  split at hrating
  · omega
  · omega

end ArenaTeamMember

section Calls

variable (ratingMod : UInt16 → ℕ → Bool → ℤ) {maxAllowedDrop change : ℤ} {m : ArenaTeamMember}

theorem lost_bounds (hmax : m.matchMakerRating ≤ m.maxMMR) (hdrop : 0 ≤ maxAllowedDrop)
    (hdrop' : maxAllowedDrop < 2 ^ 31) (hchange : -2 ^ 31 ≤ change)
    (hsmall : ofUInt16 m.matchMakerRating + change < 2 ^ 16) (against : ℕ) :
    let m' := lost ratingMod maxAllowedDrop against change m
    m'.matchMakerRating ≤ m'.maxMMR ∧ m.maxMMR ≤ m'.maxMMR ∧
      min (ofUInt16 m.matchMakerRating) (ofUInt16 m'.maxMMR - maxAllowedDrop) ≤ ofUInt16 m'.matchMakerRating ∧
      (change ≤ 0 → ofUInt16 m'.matchMakerRating ≤ ofUInt16 m.matchMakerRating) := by
  obtain ⟨hle, hgrows, hdropped, -, hfalls⟩ := ArenaTeamMember.modify_bounds
    (m := m.modifyPersonalRating (ratingMod m.personalRating against false)) change hmax hdrop hdrop' hchange hsmall
  exact ⟨hle, hgrows, hdropped, hfalls⟩

theorem won_bounds (hmax : m.matchMakerRating ≤ m.maxMMR) (hdrop : 0 ≤ maxAllowedDrop)
    (hdrop' : maxAllowedDrop < 2 ^ 31) (hchange : -2 ^ 31 ≤ change) (rating : UInt16) (against : ℕ) :
    let m' := won ratingMod maxAllowedDrop rating against change m
    m'.matchMakerRating ≤ m'.maxMMR ∧ m.maxMMR ≤ m'.maxMMR ∧
      (0 ≤ change →
        ofUInt16 m'.matchMakerRating ≤ max (ofUInt16 m.matchMakerRating) (ofUInt16 rating)) := by
  have hr := ArenaTeamMember.ofUInt16_bounds m.matchMakerRating
  have ht := ArenaTeamMember.ofUInt16_bounds rating
  simp only [won]
  by_cases hbelow : m.matchMakerRating < rating
  · -- the change is at most what the team rating is above the member's
    have hbelow' : (m.modifyPersonalRating (ratingMod m.personalRating against true)).matchMakerRating < rating :=
      hbelow
    rw [if_pos hbelow']
    have hlt := (ArenaTeamMember.lt_iff _ _).mp hbelow
    have hdiff : toInt32 (ofUInt16 rating - ofUInt16 m.matchMakerRating) =
        ofUInt16 rating - ofUInt16 m.matchMakerRating := toInt32_of_range (by omega) (by omega)
    obtain ⟨hle, hgrows, -, hrises, -⟩ := ArenaTeamMember.modify_bounds
      (m := m.modifyPersonalRating (ratingMod m.personalRating against true))
      (min change (toInt32 (ofUInt16 rating - ofUInt16 m.matchMakerRating))) hmax hdrop hdrop'
      (by rw [hdiff]; omega) (by
        show ofUInt16 m.matchMakerRating + _ < _
        rw [hdiff]
        omega)
    refine ⟨hle, hgrows, fun hwin => ?_⟩
    refine (hrises (by rw [hdiff]; omega)).le.trans ?_
    show ofUInt16 m.matchMakerRating + min change (toInt32 (ofUInt16 rating - ofUInt16 m.matchMakerRating)) ≤ _
    rw [hdiff]
    omega
  · have hbelow' : ¬ (m.modifyPersonalRating (ratingMod m.personalRating against true)).matchMakerRating < rating :=
      hbelow
    rw [if_neg hbelow']
    exact ⟨hmax, UInt16.le_refl _, fun _ => le_max_left ..⟩

end Calls

namespace ArenaTeam

variable {ratingMod : UInt16 → ℕ → Bool → ℤ} {maxAllowedDrop : ℤ} {t t' : ArenaTeam}

/-- What an event may do to a member's ratings. A loss is bounded by the maximum that the member has
after it, and so by the one before it. -/
structure Obeys (maxAllowedDrop : ℤ) (t : ArenaTeam) (e : Event) (m m' : ArenaTeamMember) : Prop where
  guid : m'.guid = m.guid
  max : m'.matchMakerRating ≤ m'.maxMMR
  grows : m.maxMMR ≤ m'.maxMMR
  loss : ∀ against change, e = .memberLost m.guid against change →
    min (ofUInt16 m.matchMakerRating) (ofUInt16 m'.maxMMR - maxAllowedDrop) ≤ ofUInt16 m'.matchMakerRating ∧
      (change ≤ 0 → ofUInt16 m'.matchMakerRating ≤ ofUInt16 m.matchMakerRating)
  win : ∀ against change, e = .memberWon m.guid against change → 0 ≤ change →
    ofUInt16 m'.matchMakerRating ≤ Max.max (ofUInt16 m.matchMakerRating) (ofUInt16 t.rating)

def Capped (t : ArenaTeam) : Prop := ∀ m ∈ t.members, m.matchMakerRating ≤ m.maxMMR

variable {m : ArenaTeamMember}

theorem Obeys.same {e : Event} (hmax : m.matchMakerRating ≤ m.maxMMR)
    (hlost : ∀ against change, e ≠ .memberLost m.guid against change)
    (hwon : ∀ against change, e ≠ .memberWon m.guid against change) : Obeys maxAllowedDrop t e m m where
  guid := rfl
  max := hmax
  grows := UInt16.le_refl _
  loss := fun against change heq => absurd heq (hlost against change)
  win := fun against change heq => absurd heq (hwon against change)

theorem obeys_lost (h : t.Capped) (hdrop : 0 ≤ maxAllowedDrop) (hdrop' : maxAllowedDrop < 2 ^ 31)
    {guid against : ℕ} {change : ℤ} (hpossible : t.possible (.memberLost guid against change))
    (hm : m ∈ t.members) :
    Obeys maxAllowedDrop t (.memberLost guid against change) m
      (if m.guid = guid then lost ratingMod maxAllowedDrop against change m else m) := by
  obtain ⟨hlow, -, hsmall⟩ := hpossible
  by_cases hguid : m.guid = guid
  · rw [if_pos hguid]
    obtain ⟨hle, hgrows, hdropped, hfalls⟩ :=
      lost_bounds ratingMod (h m hm) hdrop hdrop' hlow (hsmall m hm hguid) against
    refine ⟨rfl, hle, hgrows, ?_, fun _ _ heq => by cases heq⟩
    intro against' change' heq
    obtain ⟨-, rfl, rfl⟩ := Event.memberLost.inj heq
    exact ⟨hdropped, hfalls⟩
  · rw [if_neg hguid]
    apply Obeys.same (h m hm)
    · intro _ _ heq
      exact hguid (Event.memberLost.inj heq).1.symm
    · intro _ _ heq
      cases heq

theorem obeys_won (h : t.Capped) (hdrop : 0 ≤ maxAllowedDrop) (hdrop' : maxAllowedDrop < 2 ^ 31)
    {guid against : ℕ} {change : ℤ} (hpossible : t.possible (.memberWon guid against change))
    (hm : m ∈ t.members) :
    Obeys maxAllowedDrop t (.memberWon guid against change) m
      (if m.guid = guid then won ratingMod maxAllowedDrop t.rating against change m else m) := by
  by_cases hguid : m.guid = guid
  · rw [if_pos hguid]
    obtain ⟨hle, hgrows, hrises⟩ :=
      won_bounds ratingMod (h m hm) hdrop hdrop' hpossible.1 t.rating against
    refine ⟨won_guid .., hle, hgrows, fun _ _ heq => (by cases heq), ?_⟩
    intro against' change' heq
    obtain ⟨-, rfl, rfl⟩ := Event.memberWon.inj heq
    exact hrises
  · rw [if_neg hguid]
    apply Obeys.same (h m hm)
    · intro _ _ heq
      cases heq
    · intro _ _ heq
      exact hguid (Event.memberWon.inj heq).1.symm

theorem obeys_step (h : t.Capped) (hdrop : 0 ≤ maxAllowedDrop) (hdrop' : maxAllowedDrop < 2 ^ 31) {e : Event}
    (hs : t.step ratingMod maxAllowedDrop e = some t') :
    ∃ f : ArenaTeamMember → ArenaTeamMember,
      t'.members.rows = t.members.rows.map f ∧ ∀ m ∈ t.members, Obeys maxAllowedDrop t e m (f m) := by
  obtain ⟨hpossible, rfl⟩ := guarded_eq_some.mp hs
  cases e with
  | memberLost guid against change => exact ⟨_, rfl, fun m hm => obeys_lost h hdrop hdrop' hpossible hm⟩
  | memberWon guid against change => exact ⟨_, rfl, fun m hm => obeys_won h hdrop hdrop' hpossible hm⟩
  | finishGame rating =>
    refine ⟨id, (List.map_id _).symm, fun m hm => ?_⟩
    apply Obeys.same (h m hm)
    · intro _ _ heq
      cases heq
    · intro _ _ heq
      cases heq

theorem Capped.step (h : t.Capped) (hdrop : 0 ≤ maxAllowedDrop) (hdrop' : maxAllowedDrop < 2 ^ 31) {e : Event}
    (hs : t.step ratingMod maxAllowedDrop e = some t') : t'.Capped := by
  obtain ⟨f, hrows, hobeys⟩ := obeys_step h hdrop hdrop' hs
  intro m' hm'
  rw [KeyedList.mem_rows, hrows] at hm'
  obtain ⟨m, hm, rfl⟩ := List.mem_map.mp hm'
  exact (hobeys m hm).max

theorem Started.capped (h : t.Started) : t.Capped := by
  intro m hm
  obtain ⟨storedMax, hmax⟩ := h m hm
  rw [hmax]
  show m.matchMakerRating ≤ if storedMax ≤ m.matchMakerRating then m.matchMakerRating else storedMax
  by_cases hle : storedMax ≤ m.matchMakerRating
  · rw [if_pos hle]
    exact UInt16.le_refl _
  · rw [if_neg hle]
    exact (UInt16.le_total _ _).resolve_left hle

/-- Over any games, in any order, the ratings of every member keep to their bounds. -/
theorem ratings_of_reaches (hdrop : 0 ≤ maxAllowedDrop) (hdrop' : maxAllowedDrop < 2 ^ 31)
    (h : Reaches (step ratingMod maxAllowedDrop) anyStep Started t) :
    t.Capped ∧ ∀ e t', t.step ratingMod maxAllowedDrop e = some t' →
      ∀ m ∈ t.members, ∃ m' ∈ t'.members, Obeys maxAllowedDrop t e m m' := by
  have hcapped : t.Capped := by
    apply Reaches.invariant (I := Capped) _ _ h
    · exact fun _ => Started.capped
    · exact fun _ _ _ hs _ => hs.step hdrop hdrop'
  refine ⟨hcapped, fun e t' hs m hm => ?_⟩
  obtain ⟨f, hrows, hobeys⟩ := obeys_step hcapped hdrop hdrop' hs
  refine ⟨f m, ?_, hobeys m hm⟩
  rw [KeyedList.mem_rows, hrows]
  exact List.mem_map_of_mem hm

def sampleTeam : ArenaTeam where
  members := ⟨[⟨1, 0, 0, 0, 0, 1500, 1500, 1800⟩, ⟨2, 0, 0, 0, 0, 1500, 1510, 1510⟩], by decide⟩
  rating := 1505

/-- A win that the team rating cuts, and a loss that the maximum keeps from lowering the rating. -/
theorem ratings_of_reaches_two_games : ∃ t : ArenaTeam,
    t.members.rows.map (fun m => (m.matchMakerRating, m.maxMMR)) = [(1505, 1800), (1502, 1510)] ∧
      t.Capped ∧ ∀ e t', t.step (fun _ _ _ => 0) 200 e = some t' →
        ∀ m ∈ t.members, ∃ m' ∈ t'.members, Obeys 200 t e m m' := by
  have hstart : sampleTeam.Started := by
    intro m hm
    refine ⟨m.maxMMR, ?_⟩
    have hall : ∀ m ∈ sampleTeam.members.rows, m.maxMMR = max m.maxMMR m.matchMakerRating := by decide
    exact hall m hm
  obtain ⟨t, ht, htest⟩ := Reaches.exists_of_replay (step (fun _ _ _ => 0) 200) anyStep hstart
    [.memberWon 1 1500 12, .memberLost 1 1500 (-9), .memberLost 2 1500 (-8)] (replayOk_anyStep ..)
    (fun t => t.members.rows.map (fun m => (m.matchMakerRating, m.maxMMR)) = [(1505, 1800), (1502, 1510)])
    (by decide +kernel)
  have hrows := of_decide_eq_true htest
  exact ⟨t, hrows, ratings_of_reaches (by decide) (by decide) ht⟩

end ArenaTeam

end HysteriaCore.Battleground.Arena

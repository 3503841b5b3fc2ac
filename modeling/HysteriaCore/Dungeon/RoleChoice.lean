import HysteriaCore.Dungeon.RoleSearch

/-!
# The role check finds every combination

What the search must find is a `Choice`. A player with several roles always has one that a
given choice does not need, so some nested call keeps the choice.
-/

namespace HysteriaCore.Dungeon

/-! ### Masks -/

def Selectable (mask : Role) : Prop :=
  mask &&& (PLAYER_ROLE_LEADER ||| PLAYER_ROLE_TANK ||| PLAYER_ROLE_HEALER ||| PLAYER_ROLE_DAMAGE) =
    mask

def Playable (mask : Role) : Prop :=
  mask &&& (PLAYER_ROLE_TANK ||| PLAYER_ROLE_HEALER ||| PLAYER_ROLE_DAMAGE) = mask

instance (mask : Role) : Decidable (Playable mask) := inferInstanceAs (Decidable (_ = _))
instance (mask : Role) : Decidable (Selectable mask) := inferInstanceAs (Decidable (_ = _))

theorem Selectable.cleared {mask : Role} (h : Selectable mask) :
    Playable (mask &&& ~~~PLAYER_ROLE_LEADER) := by
  have hmasks : ∀ n : Fin (2 ^ 8), Selectable (BitVec.ofFin n) →
      Playable (BitVec.ofFin n &&& ~~~PLAYER_ROLE_LEADER) := by
    decide +kernel
  exact hmasks mask.toFin h

theorem cleared_and {mask role : Role} (hrole : role ∈ ROLES) :
    mask &&& ~~~PLAYER_ROLE_LEADER &&& role = mask &&& role := by
  have hroles : ∀ role ∈ ROLES, ~~~PLAYER_ROLE_LEADER &&& role = role := by decide
  rw [BitVec.and_assoc, hroles role hrole]

theorem Playable.sub_role {mask role : Role} (h : Playable mask) (hrole : role ∈ ROLES)
    (hbit : mask &&& role ≠ 0) :
    Playable (mask - role) ∧ ∀ other ∈ ROLES, other ≠ role →
      (mask - role) &&& other = mask &&& other := by
  have hmasks : ∀ role ∈ ROLES, ∀ n : Fin (2 ^ 8), Playable (BitVec.ofFin n) →
      BitVec.ofFin n &&& role ≠ 0 → Playable (BitVec.ofFin n - role) ∧
        ∀ other ∈ ROLES, other ≠ role →
          (BitVec.ofFin n - role) &&& other = BitVec.ofFin n &&& other := by
    decide +kernel
  exact hmasks role hrole mask.toFin h hbit

theorem Playable.exists_other {mask chosen : Role} (h : Playable mask) (hchosen : chosen ∈ ROLES)
    (hbit : mask &&& chosen ≠ 0) (hne : mask ≠ chosen) :
    (∃ role ∈ ROLES, role ≠ chosen ∧ mask &&& role ≠ 0) ∧ mask ∉ ROLES := by
  have hmasks : ∀ chosen ∈ ROLES, ∀ n : Fin (2 ^ 8), Playable (BitVec.ofFin n) →
      BitVec.ofFin n &&& chosen ≠ 0 → BitVec.ofFin n ≠ chosen →
        (∃ role ∈ ROLES, role ≠ chosen ∧ BitVec.ofFin n &&& role ≠ 0) ∧ BitVec.ofFin n ∉ ROLES := by
    decide +kernel
  exact hmasks chosen hchosen mask.toFin h hbit hne

/-! ### Choices -/

def Picks (groles chosen : RoleRows) : Prop :=
  List.Forall₂ (fun p c : ℕ × Role => c.1 = p.1 ∧ c.2 ∈ ROLES ∧ p.2 &&& c.2 ≠ 0) groles chosen

structure Choice (groles chosen : RoleRows) : Prop where
  picks : Picks groles chosen
  tanks : countRole PLAYER_ROLE_TANK chosen ≤ 1
  healers : countRole PLAYER_ROLE_HEALER chosen ≤ 1
  damage : countRole PLAYER_ROLE_DAMAGE chosen ≤ 3

theorem countRole_append (role : Role) (a b : RoleRows) :
    countRole role (a ++ b) = countRole role a + countRole role b := List.countP_append

variable {groles chosen : RoleRows}

theorem Picks.count (h : Picks groles chosen) :
    countRole PLAYER_ROLE_TANK chosen + countRole PLAYER_ROLE_HEALER chosen +
      countRole PLAYER_ROLE_DAMAGE chosen = groles.length := by
  have hroles : ∀ role ∈ ROLES, (if role = PLAYER_ROLE_TANK then 1 else 0) +
      (if role = PLAYER_ROLE_HEALER then 1 else 0) +
        (if role = PLAYER_ROLE_DAMAGE then 1 else 0) = 1 := by
    decide
  induction h with
  | nil => rfl
  | @cons p c groles chosen hpc _ ih =>
    have hone := hroles c.2 hpc.2.1
    have hcount : ∀ role, countRole role (c :: chosen) =
        countRole role chosen + if c.2 = role then 1 else 0 := fun role => by
      simp [countRole, List.countP_cons]
    rw [hcount, hcount, hcount, List.length_cons, ← ih]
    omega

theorem Picks.singles (h : Picks groles chosen) (hsingle : ∀ p ∈ groles, p.2 ∈ ROLES) : chosen = groles := by
  have hroles : ∀ a ∈ ROLES, ∀ b ∈ ROLES, a &&& b ≠ 0 → b = a := by decide
  induction h with
  | nil => rfl
  | @cons p c groles chosen hpc _ ih =>
    have hmask := hroles p.2 (hsingle p List.mem_cons_self) c.2 hpc.2.1 hpc.2.2
    rw [ih fun q hq => hsingle q (List.mem_cons_of_mem p hq), Prod.ext hpc.1 hmask]

theorem Choice.length_le (h : Choice groles chosen) : groles.length ≤ 5 := by
  have hcount := h.picks.count
  have htanks := h.tanks
  have hhealers := h.healers
  have hdamage := h.damage
  omega

/-! ### Blocks and the loop under a choice -/

variable {recurse : RoleRows → ℕ × RoleRows} {seen rest : RoleRows} {p : ℕ × Role}

theorem takeRole_multi
    {role : Role} (needed count : ℕ) (hne : p.2 ≠ role) :
    (∃ result, takeRole recurse seen p rest role needed count = .inl result ∧ result.1 ≠ 0) ∨
      (takeRole recurse seen p rest role needed count = .inr count ∧
        (p.2 &&& role ≠ 0 → (recurse (seen ++ (p.1, p.2 - role) :: rest)).1 = 0)) := by
  rw [takeRole]
  by_cases hbit : p.2 &&& role = 0
  · rw [if_pos hbit]
    exact .inr ⟨rfl, fun h => absurd hbit h⟩
  rw [if_neg hbit, if_pos hne]
  dsimp only
  by_cases hfound : (recurse (seen ++ (p.1, p.2 - role) :: rest)).1 ≠ 0
  · rw [if_pos hfound]
    exact .inl ⟨_, rfl, hfound⟩
  · rw [if_neg hfound]
    exact .inr ⟨rfl, fun _ => not_not.mp hfound⟩

theorem roleLoop_multi
    (damage healer tank : ℕ) (hsome : p.2 ≠ PLAYER_ROLE_NONE) (hmulti : p.2 ∉ ROLES)
    (hfound : ∃ role ∈ ROLES, p.2 &&& role ≠ 0 ∧
      (recurse (seen ++ (p.1, p.2 - role) :: rest)).1 ≠ 0) :
    (roleLoop recurse seen (p :: rest) damage healer tank).1 ≠ 0 := by
  have hne : ∀ role ∈ ROLES, p.2 ≠ role := fun role hrole heq => hmulti (heq ▸ hrole)
  rw [roleLoop, if_neg hsome]
  rcases takeRole_multi LFG_DPS_NEEDED damage (hne PLAYER_ROLE_DAMAGE (by decide)) with
    ⟨result, hresult, hnonzero⟩ | ⟨hd, hdzero⟩
  · rw [hresult]
    exact hnonzero
  rcases takeRole_multi LFG_HEALERS_NEEDED healer (hne PLAYER_ROLE_HEALER (by decide)) with
    ⟨result, hresult, hnonzero⟩ | ⟨hh, hhzero⟩
  · rw [hd, hresult]
    exact hnonzero
  rcases takeRole_multi LFG_TANKS_NEEDED tank (hne PLAYER_ROLE_TANK (by decide)) with
    ⟨result, hresult, hnonzero⟩ | ⟨_, htzero⟩
  · rw [hd, hh, hresult]
    exact hnonzero
  obtain ⟨role, hrole, hbit, hnonzero⟩ := hfound
  simp only [ROLES, List.mem_cons, List.not_mem_nil, or_false] at hrole
  rcases hrole with rfl | rfl | rfl
  · exact absurd (hdzero hbit) hnonzero
  · exact absurd (hhzero hbit) hnonzero
  · exact absurd (htzero hbit) hnonzero

theorem takeRole_single
    {role : Role} {needed : ℕ} (hp : p.2 ∈ ROLES) (hrole : role ∈ ROLES)
    (hroom : countRole role (seen ++ [p]) ≤ needed) :
    takeRole recurse seen p rest role needed (countRole role seen) =
      .inr (countRole role (seen ++ [p])) := by
  have hroles : ∀ a ∈ ROLES, ∀ b ∈ ROLES, (a &&& b = 0 ↔ a ≠ b) := by decide
  rw [countRole_snoc] at hroom ⊢
  rw [takeRole]
  by_cases hown : p.2 = role
  · have hbit : ¬p.2 &&& role = 0 := fun h => (hroles p.2 hp role hrole).mp h hown
    rw [if_pos hown] at hroom ⊢
    rw [if_neg hbit, if_neg (not_not.mpr hown), if_neg (by omega)]
  · rw [if_pos ((hroles p.2 hp role hrole).mpr hown), if_neg hown, Nat.add_zero]

theorem Picks.split {seen rest chosen : RoleRows}
    (h : Picks (seen ++ p :: rest) chosen) :
    ∃ before c after, chosen = before ++ c :: after ∧ Picks seen before ∧
      (c.1 = p.1 ∧ c.2 ∈ ROLES ∧ p.2 &&& c.2 ≠ 0) ∧ Picks rest after := by
  induction seen generalizing chosen with
  | nil =>
    cases h with
    | @cons _ c _ after hpc hrest => exact ⟨[], c, after, rfl, .nil, hpc, hrest⟩
  | cons q seen ih =>
    cases h with
    | @cons _ d _ chosen hqd hrest =>
      obtain ⟨before, c, after, rfl, hseen, hpc, hafter⟩ := ih hrest
      exact ⟨d :: before, c, after, rfl, .cons hqd hseen, hpc, hafter⟩

theorem roleLoop_complete (rest seen : RoleRows)
    {chosen : RoleRows}
    (hrec : ∀ roles, (∀ p ∈ roles, Playable p.2) → roles ≠ [] → Choice roles chosen →
      maskSum roles < maskSum (seen ++ rest) → (recurse roles).1 ≠ 0)
    (hplay : ∀ p ∈ seen ++ rest, Playable p.2) (hsingle : ∀ p ∈ seen, p.2 ∈ ROLES)
    (hne : seen ++ rest ≠ []) (hchoice : Choice (seen ++ rest) chosen) :
    (roleLoop recurse seen rest (countRole PLAYER_ROLE_DAMAGE seen)
      (countRole PLAYER_ROLE_HEALER seen) (countRole PLAYER_ROLE_TANK seen)).1 ≠ 0 := by
  induction rest generalizing seen with
  | nil =>
    rw [List.append_nil] at hchoice hne
    have hcount := hchoice.picks.count
    have hlen := hchoice.length_le
    have hpos := List.length_pos_of_ne_nil hne
    obtain rfl := hchoice.picks.singles hsingle
    have hall : countRole PLAYER_ROLE_TANK chosen + countRole PLAYER_ROLE_HEALER chosen +
        countRole PLAYER_ROLE_DAMAGE chosen = chosen.length % 256 := by omega
    rw [roleLoop, if_pos hall]
    dsimp only
    omega
  | cons p rest ih =>
    obtain ⟨before, c, after, rfl, hseen, ⟨hc, hrole, hbit⟩, hafter⟩ := hchoice.picks.split
    have hsome : p.2 ≠ PLAYER_ROLE_NONE := by
      intro hnone
      rw [hnone] at hbit
      exact hbit (BitVec.zero_and)
    have hp := hplay p (by simp)
    by_cases hone : p.2 = c.2
    · -- the only role of the player, which the choice has room for
      have hmem : p.2 ∈ ROLES := hone ▸ hrole
      obtain rfl := hseen.singles hsingle
      have hroom : ∀ role, countRole role (before ++ [p]) ≤ countRole role (before ++ c :: after) := by
        intro role
        rw [List.append_cons before c after, countRole_append role (before ++ [c]), countRole_snoc,
          countRole_snoc, hone]
        omega
      have hd : countRole PLAYER_ROLE_DAMAGE (before ++ [p]) ≤ LFG_DPS_NEEDED :=
        (hroom PLAYER_ROLE_DAMAGE).trans hchoice.damage
      have hh : countRole PLAYER_ROLE_HEALER (before ++ [p]) ≤ LFG_HEALERS_NEEDED :=
        (hroom PLAYER_ROLE_HEALER).trans hchoice.healers
      have ht : countRole PLAYER_ROLE_TANK (before ++ [p]) ≤ LFG_TANKS_NEEDED :=
        (hroom PLAYER_ROLE_TANK).trans hchoice.tanks
      rw [roleLoop, if_neg hsome, takeRole_single hmem (by decide) hd,
        takeRole_single hmem (by decide) hh, takeRole_single hmem (by decide) ht]
      have hassoc : before ++ p :: rest = before ++ [p] ++ rest := List.append_cons ..
      rw [hassoc] at hrec hplay hchoice hne
      refine ih (before ++ [p]) hrec hplay ?_ hne hchoice
      intro q hq
      rcases List.mem_append.mp hq with hold | hlast
      · exact hsingle q hold
      · exact List.mem_singleton.mp hlast ▸ hmem
    · -- a role that the choice does not need is taken away
      obtain ⟨⟨role, hrole', hother, hhas⟩, hmulti⟩ := hp.exists_other hrole hbit hone
      obtain ⟨hpart, hkept⟩ := hp.sub_role hrole' hhas
      refine roleLoop_multi _ _ _ hsome hmulti ⟨role, hrole', hhas, hrec _ ?_ (by simp) ?_ ?_⟩
      · intro q hq
        rcases List.mem_append.mp hq with hold | hnew
        · exact hplay q (List.mem_append_left _ hold)
        rcases List.mem_cons.mp hnew with rfl | hlater
        · exact hpart
        · exact hplay q (List.mem_append_right _ (List.mem_cons_of_mem p hlater))
      · refine { hchoice with picks := List.rel_append hseen (.cons ⟨hc, hrole, ?_⟩ hafter) }
        rw [hkept c.2 hrole hother.symm]
        exact hbit
      · have hlt := (Dungeon.sub_role p.2 role hrole' hhas).1
        simp only [maskSum_append, maskSum_cons]
        omega

theorem checkRoles_complete {n : ℕ} {roles chosen : RoleRows} (hn : maskSum roles < n)
    (hplay : ∀ p ∈ roles, Playable p.2) (hne : roles ≠ []) (hchoice : Choice roles chosen) :
    (checkRoles n roles).1 ≠ 0 := by
  induction n generalizing roles with
  | zero => omega
  | succ n ih =>
    rw [checkRoles, if_neg hne]
    refine roleLoop_complete roles [] (fun roles' hplay' hne' hchoice' hlt => ?_) hplay (by simp)
      hne hchoice
    rw [List.nil_append] at hlt
    exact ih (by omega) hplay' hne' hchoice'

/-! ### The whole check -/

theorem picks_clearLeader : Picks (clearLeader groles) chosen ↔ Picks groles chosen := by
  rw [Picks, clearLeader, List.forall₂_map_left_iff, Picks]
  constructor <;> intro h
  · refine h.imp ?_
    rintro p c ⟨hc, hrole, hbit⟩
    exact ⟨hc, hrole, by rwa [← cleared_and hrole]⟩
  · refine h.imp ?_
    rintro p c ⟨hc, hrole, hbit⟩
    exact ⟨hc, hrole, by rwa [cleared_and hrole]⟩

theorem choice_of_fits {groles left : RoleRows} {code : ℕ} (hnarrow : Narrows groles left)
    (hfits : Fits code left) : Choice groles left := by
  have hroles : ∀ role ∈ ROLES, role ≠ 0 := by decide
  have hmem : ∀ c ∈ left, c.2 ∈ ROLES := by
    intro c hc
    rcases hfits.role_mem hc with h | h | h <;> rw [h] <;> decide
  refine ⟨?_, hfits.tanks, hfits.healers, hfits.dps⟩
  clear hfits
  induction hnarrow with
  | nil => exact .nil
  | @cons p c groles left hpc _ ih =>
    refine .cons ⟨hpc.1, hmem c List.mem_cons_self, ?_⟩
      (ih fun d hd => hmem d (List.mem_cons_of_mem c hd))
    rw [BitVec.and_comm, hpc.2]
    exact hroles c.2 (hmem c List.mem_cons_self)

/-- The check ends, finds a choice exactly when there is one, and leaves the map with the
choice or with the leaders cleared. -/
theorem role_check_complete (groles : RoleRows) (hne : groles ≠ [])
    (hmask : ∀ row ∈ groles, Selectable row.2) (hsize : SizeTold groles.length) :
    ∃ code left,
      (∀ depth, maskSum (clearLeader groles) < depth →
        InPlace.checkGroupRoles depth groles true = some (code, left)) ∧
      (code ≠ 0 ↔ ∃ chosen, Choice groles chosen) ∧
      (code ≠ 0 → Choice groles left ∧ code = 8 * countRole PLAYER_ROLE_TANK left +
        4 * countRole PLAYER_ROLE_HEALER left + countRole PLAYER_ROLE_DAMAGE left) ∧
      (code = 0 → left = clearLeader groles) := by
  have hfound : (checkGroupRoles groles).1 ≠ 0 → Choice groles (checkGroupRoles groles).2 ∧
      (checkGroupRoles groles).1 = 8 * countRole PLAYER_ROLE_TANK (checkGroupRoles groles).2 +
        4 * countRole PLAYER_ROLE_HEALER (checkGroupRoles groles).2 +
          countRole PLAYER_ROLE_DAMAGE (checkGroupRoles groles).2 := by
    intro hcode
    obtain ⟨hnarrow, hfits⟩ := checkGroupRoles_sound groles hsize hcode
    exact ⟨choice_of_fits hnarrow hfits, hfits.code_eq⟩
  refine ⟨(checkGroupRoles groles).1, (checkGroupRoles groles).2,
    fun depth hdepth => InPlace.checkGroupRoles_eq hne hdepth, ?_, hfound,
    fun hcode => checkRoles_restores hcode⟩
  constructor
  · exact fun hcode => ⟨_, (hfound hcode).1⟩
  · rintro ⟨chosen, hchoice⟩
    refine checkRoles_complete (Nat.lt_succ_self _) ?_ (by simpa [clearLeader] using hne)
      { hchoice with picks := picks_clearLeader.mpr hchoice.picks }
    intro p hp
    obtain ⟨row, hrow, rfl⟩ := List.mem_map.mp hp
    exact (hmask row hrow).cleared

theorem role_check_complete_two :
    ∃ code left, InPlace.checkGroupRoles 20 [(1, 3), (2, 12)] true = some (code, left) ∧
      code ≠ 0 := by
  obtain ⟨code, left, hrun, hiff, -⟩ := role_check_complete [(1, 3), (2, 12)] (by decide)
    (by decide) (.inl (by decide))
  have hpicks : Picks [(1, 3), (2, 12)] [(1, 2), (2, 8)] :=
    .cons (by decide) (.cons (by decide) .nil)
  exact ⟨code, left, hrun 20 (by decide),
    hiff.mpr ⟨[(1, 2), (2, 8)], hpicks, by decide, by decide, by decide⟩⟩

/-! ### More players than the counter of the size can tell -/

def firstFive : RoleRows :=
  [(0, PLAYER_ROLE_TANK), (1, PLAYER_ROLE_HEALER), (2, PLAYER_ROLE_DAMAGE), (3, PLAYER_ROLE_DAMAGE),
    (4, PLAYER_ROLE_DAMAGE)]

def Either (p : ℕ × Role) : Prop := p.2 = PLAYER_ROLE_TANK ||| PLAYER_ROLE_HEALER

def Settled (p : ℕ × Role) : Prop := p.2 = PLAYER_ROLE_TANK ∨ p.2 = PLAYER_ROLE_HEALER

theorem roleLoop_either
    (damage healer tank : ℕ) (hp : Either p) (hrec : ∀ role, Settled (p.1, p.2 - role) →
      (recurse (seen ++ (p.1, p.2 - role) :: rest)).1 = 0) :
    roleLoop recurse seen (p :: rest) damage healer tank =
      roleLoop recurse (seen ++ [p]) rest damage healer tank := by
  obtain ⟨guid, mask⟩ := p
  obtain rfl : mask = PLAYER_ROLE_TANK ||| PLAYER_ROLE_HEALER := hp
  have htanks : (PLAYER_ROLE_TANK ||| PLAYER_ROLE_HEALER) - PLAYER_ROLE_HEALER = PLAYER_ROLE_TANK := by
    decide
  have hheals : (PLAYER_ROLE_TANK ||| PLAYER_ROLE_HEALER) - PLAYER_ROLE_TANK = PLAYER_ROLE_HEALER := by
    decide
  have hhealer := hrec PLAYER_ROLE_HEALER (.inl htanks)
  have htank := hrec PLAYER_ROLE_TANK (.inr hheals)
  have hbit : (PLAYER_ROLE_TANK ||| PLAYER_ROLE_HEALER) &&& PLAYER_ROLE_DAMAGE = 0 := by decide
  have hsome : PLAYER_ROLE_TANK ||| PLAYER_ROLE_HEALER ≠ PLAYER_ROLE_NONE := by decide
  have hd (needed count : ℕ) : takeRole recurse seen (guid, PLAYER_ROLE_TANK ||| PLAYER_ROLE_HEALER)
      rest PLAYER_ROLE_DAMAGE needed count = .inr count := by
    rw [takeRole, if_pos hbit]
  have hother (role : Role) (hbit : (PLAYER_ROLE_TANK ||| PLAYER_ROLE_HEALER) &&& role ≠ 0)
      (hne : PLAYER_ROLE_TANK ||| PLAYER_ROLE_HEALER ≠ role)
      (hzero : (recurse (seen ++ (guid, (PLAYER_ROLE_TANK ||| PLAYER_ROLE_HEALER) - role) ::
        rest)).1 = 0) (needed count : ℕ) :
      takeRole recurse seen (guid, PLAYER_ROLE_TANK ||| PLAYER_ROLE_HEALER) rest role needed count =
        .inr count := by
    rw [takeRole, if_neg hbit, if_pos hne]
    dsimp only
    rw [if_neg (not_not.mpr hzero)]
  rw [roleLoop, if_neg hsome, hd, hother PLAYER_ROLE_HEALER (by decide) (by decide) hhealer,
    hother PLAYER_ROLE_TANK (by decide) (by decide) htank]

theorem roleLoop_settled (hp : Settled p) : (roleLoop recurse seen (p :: rest) 3 1 1).1 = 0 := by
  obtain ⟨guid, mask⟩ := p
  rcases hp with h | h
  · obtain rfl : mask = PLAYER_ROLE_TANK := h
    simp [roleLoop, takeRole, PLAYER_ROLE_NONE, PLAYER_ROLE_TANK, PLAYER_ROLE_HEALER,
      PLAYER_ROLE_DAMAGE, LFG_TANKS_NEEDED]
  · obtain rfl : mask = PLAYER_ROLE_HEALER := h
    simp [roleLoop, takeRole, PLAYER_ROLE_NONE, PLAYER_ROLE_HEALER, PLAYER_ROLE_DAMAGE,
      LFG_HEALERS_NEEDED]

theorem roleLoop_crowd (rest passed : RoleRows)
    (hrest : ∀ p ∈ rest, Either p ∨ Settled p) (hpassed : ∀ p ∈ passed, Either p)
    (hrec : ∀ crowd, (∀ p ∈ crowd, Either p ∨ Settled p) → (∃ p ∈ crowd, Settled p) →
      (recurse (firstFive ++ crowd)).1 = 0) :
    ((∃ p ∈ rest, Settled p) → (roleLoop recurse (firstFive ++ passed) rest 3 1 1).1 = 0) ∧
      ((∀ p ∈ rest, Either p) → (passed ++ rest).length % 256 = 0 →
        (roleLoop recurse (firstFive ++ passed) rest 3 1 1).1 = 15) := by
  induction rest generalizing passed with
  | nil =>
    refine ⟨by simp, fun _ hsize => ?_⟩
    have hlen : 1 + 1 + 3 = (firstFive ++ passed).length % 256 := by
      rw [List.append_nil] at hsize
      rw [List.length_append, firstFive]
      simp only [List.length_cons, List.length_nil]
      omega
    rw [roleLoop, if_pos hlen]
  | cons p rest ih =>
    by_cases hp : Either p
    · have hnested : ∀ role, Settled (p.1, p.2 - role) →
          (recurse (firstFive ++ passed ++ (p.1, p.2 - role) :: rest)).1 = 0 := by
        intro role hsettled
        rw [List.append_assoc]
        refine hrec _ (fun q hq => ?_) ⟨_, by simp, hsettled⟩
        rcases List.mem_append.mp hq with hold | hnew
        · exact .inl (hpassed q hold)
        rcases List.mem_cons.mp hnew with rfl | hlater
        · exact .inr hsettled
        · exact hrest q (List.mem_cons_of_mem p hlater)
      have hpassed' : ∀ q ∈ passed ++ [p], Either q := by
        intro q hq
        rcases List.mem_append.mp hq with hold | hlast
        · exact hpassed q hold
        · exact List.mem_singleton.mp hlast ▸ hp
      have hnotSettled : ¬Settled p := by
        rintro (h | h) <;> exact absurd (h.symm.trans hp) (by decide)
      have hnext := ih (passed ++ [p]) (fun q hq => hrest q (List.mem_cons_of_mem p hq)) hpassed'
      rw [roleLoop_either 3 1 1 hp hnested, List.append_assoc]
      constructor
      · rintro ⟨q, hq, hsettled⟩
        rcases List.mem_cons.mp hq with rfl | hlater
        · exact absurd hsettled hnotSettled
        · exact hnext.1 ⟨q, hlater, hsettled⟩
      · intro hall hsize
        rw [List.append_cons] at hsize
        exact hnext.2 (fun q hq => hall q (List.mem_cons_of_mem p hq)) hsize
    · have hsettled := (hrest p List.mem_cons_self).resolve_left hp
      exact ⟨fun _ => roleLoop_settled hsettled, fun hall => absurd (hall p List.mem_cons_self) hp⟩

theorem checkRoles_crowd (n : ℕ) (crowd : RoleRows) (hcrowd : ∀ p ∈ crowd, Either p ∨ Settled p)
    (hsettled : ∃ p ∈ crowd, Settled p) : (checkRoles n (firstFive ++ crowd)).1 = 0 := by
  induction n generalizing crowd with
  | zero => rfl
  | succ n ih =>
    rw [checkRoles, if_neg (by simp [firstFive])]
    exact (roleLoop_crowd crowd [] hcrowd (by simp) ih).1 hsettled

def crowded : RoleRows :=
  firstFive ++ (List.range 256).map fun i => (5 + i, PLAYER_ROLE_TANK ||| PLAYER_ROLE_HEALER)

theorem crowded_passes (n : ℕ) : (checkRoles (n + 1) crowded).1 = 15 := by
  have heither : ∀ p ∈ (List.range 256).map fun i => (5 + i, PLAYER_ROLE_TANK ||| PLAYER_ROLE_HEALER),
      Either p := by
    intro p hp
    obtain ⟨i, _, rfl⟩ := List.mem_map.mp hp
    rfl
  rw [checkRoles, if_neg (by simp [crowded, firstFive])]
  refine (roleLoop_crowd _ [] (fun p hp => .inl (heither p hp)) (by simp)
    (checkRoles_crowd n)).2 heither ?_
  simp

theorem crowded_check_passes :
    ¬∀ groles : RoleRows, groles ≠ [] → (groles.map Prod.fst).Nodup →
      (∀ row ∈ groles, Selectable row.2) → ∃ code left,
        (∀ depth, maskSum (clearLeader groles) < depth →
          InPlace.checkGroupRoles depth groles true = some (code, left)) ∧
        (code ≠ 0 ↔ ∃ chosen, Choice groles chosen) := by
  intro h
  have hne : crowded ≠ [] := by simp [crowded, firstFive]
  have hkeys : crowded.map Prod.fst = List.range (5 + 256) := by
    rw [crowded, List.map_append, List.map_map, List.range_add]
    rfl
  have hnodup : (crowded.map Prod.fst).Nodup := by
    rw [hkeys]
    exact List.nodup_range
  have hrows : ∀ row ∈ crowded, Selectable row.2 ∧ row.2 &&& ~~~PLAYER_ROLE_LEADER = row.2 := by
    intro row hrow
    rcases List.mem_append.mp hrow with hfirst | hlater
    · have hfive : ∀ row ∈ firstFive, Selectable row.2 ∧ row.2 &&& ~~~PLAYER_ROLE_LEADER = row.2 := by
        decide
      exact hfive row hfirst
    · obtain ⟨i, _, rfl⟩ := List.mem_map.mp hlater
      have hboth : Selectable (PLAYER_ROLE_TANK ||| PLAYER_ROLE_HEALER) ∧
          (PLAYER_ROLE_TANK ||| PLAYER_ROLE_HEALER) &&& ~~~PLAYER_ROLE_LEADER =
            PLAYER_ROLE_TANK ||| PLAYER_ROLE_HEALER := by
        decide
      exact hboth
  have hcleared : clearLeader crowded = crowded := by
    have hmap := List.map_congr_left fun row hrow =>
      show (row.1, row.2 &&& ~~~PLAYER_ROLE_LEADER) = id row from Prod.ext rfl (hrows row hrow).2
    rwa [List.map_id] at hmap
  obtain ⟨code, left, hrun, hiff⟩ := h crowded hne hnodup fun row hrow => (hrows row hrow).1
  have hvalue := hrun _ (Nat.lt_succ_self _)
  rw [InPlace.checkGroupRoles_eq hne (Nat.lt_succ_self _)] at hvalue
  have hcode : (checkGroupRoles crowded).1 = 15 := by
    rw [checkGroupRoles, hcleared]
    exact crowded_passes _
  rw [Option.some.inj hvalue] at hcode
  dsimp only at hcode
  obtain ⟨chosen, hchoice⟩ := hiff.mp (by omega)
  have hlen := hchoice.length_le
  have hlong : crowded.length = 261 := by simp [crowded, firstFive]
  omega

end HysteriaCore.Dungeon

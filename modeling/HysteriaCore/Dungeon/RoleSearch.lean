import HysteriaCore.Dungeon.Roles

/-!
# The role check as a search

`CheckGroupRoles` works on one map: before a nested call it takes a role from a player and
after a failed one it gives the role back. Here the map is passed through every call, a
nested call beyond `depth` has no result, and the code above turns out to be its value.
-/

namespace HysteriaCore.Dungeon

/-! ### The code in place -/

namespace InPlace

def second (groles : RoleRows) (i : ℕ) : Role := (groles.getD i (0, PLAYER_ROLE_NONE)).2

def lose (groles : RoleRows) (i : ℕ) (role : Role) : RoleRows :=
  groles.modify i fun row => (row.1, row.2 - role)

def giveBack (groles : RoleRows) (i : ℕ) (role : Role) : RoleRows :=
  groles.modify i fun row => (row.1, row.2 + role)

def takeRole (recurse : RoleRows → Option (ℕ × RoleRows)) (i : ℕ) (role : Role)
    (needed count : ℕ) (groles : RoleRows) : Option ((ℕ × RoleRows) ⊕ (ℕ × RoleRows)) :=
  if second groles i &&& role = 0 then some (.inr (count, groles))
  else if second groles i ≠ role then
    match recurse (lose groles i role) with
    | none => none
    | some (x, groles) =>
      if x ≠ 0 then some (.inl (x, groles)) else some (.inr (count, giveBack groles i role))
  else if count = needed then some (.inl (0, groles))
  else some (.inr (count + 1, groles))

def roleLoop (recurse : RoleRows → Option (ℕ × RoleRows)) :
    ℕ → ℕ → ℕ → ℕ → ℕ → RoleRows → Option (ℕ × RoleRows)
  | 0, _, damage, healer, tank, groles =>
    if tank + healer + damage = groles.length % 256 then
      some (8 * tank + 4 * healer + damage, groles)
    else some (0, groles)
  | left + 1, i, damage, healer, tank, groles =>
    if second groles i = PLAYER_ROLE_NONE then some (0, groles)
    else
      match takeRole recurse i PLAYER_ROLE_DAMAGE LFG_DPS_NEEDED damage groles with
      | none => none
      | some (.inl result) => some result
      | some (.inr (damage, groles)) =>
        match takeRole recurse i PLAYER_ROLE_HEALER LFG_HEALERS_NEEDED healer groles with
        | none => none
        | some (.inl result) => some result
        | some (.inr (healer, groles)) =>
          match takeRole recurse i PLAYER_ROLE_TANK LFG_TANKS_NEEDED tank groles with
          | none => none
          | some (.inl result) => some result
          | some (.inr (tank, groles)) => roleLoop recurse left (i + 1) damage healer tank groles

def checkGroupRoles : ℕ → RoleRows → Bool → Option (ℕ × RoleRows)
  | 0, _, _ => none
  | depth + 1, groles, removeLeaderFlag =>
    if groles.isEmpty then some (0, groles)
    else
      let groles := if removeLeaderFlag then clearLeader groles else groles
      roleLoop (fun groles => checkGroupRoles depth groles false) groles.length 0 0 0 0 groles

end InPlace

/-! ### A failed check gives everything back -/

variable {recurse : RoleRows → ℕ × RoleRows}

theorem takeRole_restores {seen rest : RoleRows} {p : ℕ × Role}
    {role : Role} {needed count : ℕ} {result : ℕ × RoleRows}
    (h : takeRole recurse seen p rest role needed count = .inl result) (hzero : result.1 = 0) :
    result.2 = seen ++ p :: rest := by
  rw [takeRole] at h
  dsimp only at h
  split_ifs at h with hbit hone hfound
  · obtain rfl := Sum.inl.inj h
    exact absurd hzero hfound
  · obtain rfl := Sum.inl.inj h
    rfl

theorem roleLoop_restores (rest seen : RoleRows)
    (damage healer tank : ℕ) (h : (roleLoop recurse seen rest damage healer tank).1 = 0) :
    (roleLoop recurse seen rest damage healer tank).2 = seen ++ rest := by
  induction rest generalizing seen damage healer tank with
  | nil =>
    rw [roleLoop] at h ⊢
    split <;> simp
  | cons p rest ih =>
    rw [roleLoop] at h ⊢
    split at h
    · rename_i hnone
      rw [if_pos hnone]
    · rename_i hsome
      rw [if_neg hsome]
      cases hd : takeRole recurse seen p rest PLAYER_ROLE_DAMAGE LFG_DPS_NEEDED damage with
      | inl result =>
        rw [hd] at h
        exact takeRole_restores hd h
      | inr damage =>
        rw [hd] at h
        dsimp only at h ⊢
        cases hh : takeRole recurse seen p rest PLAYER_ROLE_HEALER LFG_HEALERS_NEEDED healer with
        | inl result =>
          rw [hh] at h
          exact takeRole_restores hh h
        | inr healer =>
          rw [hh] at h
          dsimp only at h ⊢
          cases ht : takeRole recurse seen p rest PLAYER_ROLE_TANK LFG_TANKS_NEEDED tank with
          | inl result =>
            rw [ht] at h
            exact takeRole_restores ht h
          | inr tank =>
            rw [ht] at h
            have hrest := ih (seen ++ [p]) damage healer tank h
            rwa [← List.append_cons] at hrest

theorem checkRoles_restores {n : ℕ} {roles : RoleRows} (h : (checkRoles n roles).1 = 0) :
    (checkRoles n roles).2 = roles := by
  cases n with
  | zero => rfl
  | succ n =>
    rw [checkRoles] at h ⊢
    split at h
    · rename_i hnil
      rw [if_pos hnil]
    · rename_i hne
      rw [if_neg hne]
      exact roleLoop_restores roles [] 0 0 0 h

/-! ### The code in place does the same -/

namespace InPlace

theorem modify_middle (seen rest : RoleRows) (p : ℕ × Role) (f : ℕ × Role → ℕ × Role) :
    (seen ++ p :: rest).modify seen.length f = seen ++ f p :: rest := by
  induction seen with
  | nil => rfl
  | cons q seen ih => exact congrArg (q :: ·) ih

@[simp] theorem second_middle (seen rest : RoleRows) (p : ℕ × Role) :
    second (seen ++ p :: rest) seen.length = p.2 := by
  simp [second]

theorem giveBack_lose (seen rest : RoleRows) (p : ℕ × Role) (role : Role) :
    giveBack (lose (seen ++ p :: rest) seen.length role) seen.length role = seen ++ p :: rest := by
  have hback : p.2 - role + role = p.2 := BitVec.sub_add_cancel ..
  rw [lose, modify_middle, giveBack, modify_middle, hback]

section Same

variable {recurse : RoleRows → Option (ℕ × RoleRows)} {plain : RoleRows → ℕ × RoleRows}
  (hrestores : ∀ roles, (plain roles).1 = 0 → (plain roles).2 = roles)

include hrestores

theorem takeRole_same {seen rest : RoleRows} {p : ℕ × Role}
    (hsame : ∀ roles, maskSum roles < maskSum (seen ++ p :: rest) →
      recurse roles = some (plain roles)) {role : Role} (hrole : role ∈ ROLES) (needed count : ℕ) :
    takeRole recurse seen.length role needed count (seen ++ p :: rest) =
      some (match Dungeon.takeRole plain seen p rest role needed count with
        | .inl result => .inl result
        | .inr count => .inr (count, seen ++ p :: rest)) := by
  rw [takeRole, Dungeon.takeRole, second_middle]
  by_cases hbit : p.2 &&& role = 0
  · rw [if_pos hbit, if_pos hbit]
  rw [if_neg hbit, if_neg hbit]
  by_cases hone : p.2 ≠ role
  case neg =>
    rw [if_neg hone, if_neg hone]
    by_cases hfull : count = needed
    · rw [if_pos hfull, if_pos hfull]
    · rw [if_neg hfull, if_neg hfull]
  rw [if_pos hone, if_pos hone]
  have hlose : lose (seen ++ p :: rest) seen.length role = seen ++ (p.1, p.2 - role) :: rest := by
    rw [lose, modify_middle]
  have hsmall : maskSum (seen ++ (p.1, p.2 - role) :: rest) < maskSum (seen ++ p :: rest) := by
    have hlt := (sub_role p.2 role hrole hbit).1
    simp only [maskSum_append, maskSum_cons]
    omega
  rw [hlose, hsame _ hsmall]
  dsimp only
  by_cases hfound : (plain (seen ++ (p.1, p.2 - role) :: rest)).1 ≠ 0
  · rw [if_pos hfound, if_pos hfound]
  · rw [if_neg hfound, if_neg hfound, hrestores _ (not_not.mp hfound), ← hlose, giveBack_lose]

theorem roleLoop_same (rest seen : RoleRows)
    (hsame : ∀ roles, maskSum roles < maskSum (seen ++ rest) → recurse roles = some (plain roles))
    (damage healer tank : ℕ) :
    roleLoop recurse rest.length seen.length damage healer tank (seen ++ rest) =
      some (Dungeon.roleLoop plain seen rest damage healer tank) := by
  induction rest generalizing seen damage healer tank with
  | nil =>
    rw [List.append_nil, List.length_nil, roleLoop, Dungeon.roleLoop]
    split <;> rfl
  | cons p rest ih =>
    rw [List.length_cons, roleLoop, Dungeon.roleLoop, second_middle]
    by_cases hnone : p.2 = PLAYER_ROLE_NONE
    · rw [if_pos hnone, if_pos hnone]
    rw [if_neg hnone, if_neg hnone, takeRole_same hrestores hsame (by decide)]
    cases Dungeon.takeRole plain seen p rest PLAYER_ROLE_DAMAGE LFG_DPS_NEEDED damage with
    | inl result => rfl
    | inr damage =>
      dsimp only
      rw [takeRole_same hrestores hsame (by decide)]
      cases Dungeon.takeRole plain seen p rest PLAYER_ROLE_HEALER LFG_HEALERS_NEEDED healer with
      | inl result => rfl
      | inr healer =>
        dsimp only
        rw [takeRole_same hrestores hsame (by decide)]
        cases Dungeon.takeRole plain seen p rest PLAYER_ROLE_TANK LFG_TANKS_NEEDED tank with
        | inl result => rfl
        | inr tank =>
          dsimp only
          rw [List.append_cons] at hsame ⊢
          have hrest := ih (seen ++ [p]) hsame damage healer tank
          rwa [List.length_append, List.length_singleton] at hrest

end Same

theorem checkGroupRoles_nested (depth : ℕ) (groles : RoleRows) (h : maskSum groles < depth) :
    checkGroupRoles depth groles false = some (checkRoles depth groles) := by
  induction depth generalizing groles with
  | zero => omega
  | succ depth ih =>
    rw [checkGroupRoles, checkRoles]
    cases groles with
    | nil => rfl
    | cons p groles =>
      rw [if_neg (by simp), if_neg (by simp)]
      dsimp only
      refine roleLoop_same (fun roles => checkRoles_restores) (p :: groles) [] ?_ 0 0 0
      intro roles hlt
      rw [List.nil_append] at hlt
      exact ih roles (by omega)

theorem checkGroupRoles_eq {depth : ℕ} {groles : RoleRows} (hne : groles ≠ [])
    (h : maskSum (clearLeader groles) < depth) :
    checkGroupRoles depth groles true = some (Dungeon.checkGroupRoles groles) := by
  have hempty : ¬groles.isEmpty = true := by simpa using hne
  have hcleared : ¬(clearLeader groles).isEmpty = true := by simpa [clearLeader] using hne
  have hnested := checkGroupRoles_nested depth (clearLeader groles) h
  have hdepth := checkRoles_depth depth (maskSum (clearLeader groles) + 1) (clearLeader groles) h
    (Nat.lt_succ_self _)
  rw [Dungeon.checkGroupRoles, ← hdepth, ← hnested]
  cases depth with
  | zero => omega
  | succ depth =>
    rw [checkGroupRoles, checkGroupRoles, if_neg hempty, if_neg hcleared]
    rfl

end InPlace

end HysteriaCore.Dungeon

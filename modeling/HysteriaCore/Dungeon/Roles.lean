import Mathlib.Algebra.Order.BigOperators.Group.List
import Mathlib.Algebra.Ring.Nat
import Mathlib.Data.List.Induction

/-!
# Roles of a group

`LFGMgr::CheckGroupRoles` picks one of the roles that each player selected, at
most one tank, one healer and three damage dealers. It backtracks: a player with
several roles loses one of them and the check starts again from the first player.
-/

namespace HysteriaCore.Dungeon

abbrev Role := BitVec 8

def PLAYER_ROLE_NONE : Role := 0
def PLAYER_ROLE_LEADER : Role := 1
def PLAYER_ROLE_TANK : Role := 2
def PLAYER_ROLE_HEALER : Role := 4
def PLAYER_ROLE_DAMAGE : Role := 8

def LFG_TANKS_NEEDED : ℕ := 1
def LFG_HEALERS_NEEDED : ℕ := 1
def LFG_DPS_NEEDED : ℕ := 3

abbrev RoleRows := List (ℕ × Role)

/-! ### The code -/

/-- One block `if (it->second & role)`: the result it returns, or the count it goes on with. -/
def takeRole (recurse : RoleRows → ℕ × RoleRows) (seen : RoleRows) (p : ℕ × Role) (rest : RoleRows)
    (role : Role) (needed count : ℕ) : (ℕ × RoleRows) ⊕ ℕ :=
  if p.2 &&& role = 0 then .inr count
  else if p.2 ≠ role then
    let found := recurse (seen ++ (p.1, p.2 - role) :: rest)
    if found.1 ≠ 0 then .inl found else .inr count
  else if count = needed then .inl (0, seen ++ p :: rest)
  else .inr (count + 1)

def roleLoop (recurse : RoleRows → ℕ × RoleRows) (seen : RoleRows) :
    RoleRows → ℕ → ℕ → ℕ → ℕ × RoleRows
  | [], damage, healer, tank =>
    if tank + healer + damage = seen.length % 256 then (8 * tank + 4 * healer + damage, seen)
    else (0, seen)
  | p :: rest, damage, healer, tank =>
    if p.2 = PLAYER_ROLE_NONE then (0, seen ++ p :: rest)
    else
      match takeRole recurse seen p rest PLAYER_ROLE_DAMAGE LFG_DPS_NEEDED damage with
      | .inl result => result
      | .inr damage =>
        match takeRole recurse seen p rest PLAYER_ROLE_HEALER LFG_HEALERS_NEEDED healer with
        | .inl result => result
        | .inr healer =>
          match takeRole recurse seen p rest PLAYER_ROLE_TANK LFG_TANKS_NEEDED tank with
          | .inl result => result
          | .inr tank => roleLoop recurse (seen ++ [p]) rest damage healer tank

/-- `CheckGroupRoles` without the leader flag, with at most `depth` nested calls. -/
def checkRoles : ℕ → RoleRows → ℕ × RoleRows
  | 0, roles => (0, roles)
  | depth + 1, roles =>
    if roles = [] then (0, roles) else roleLoop (checkRoles depth) [] roles 0 0 0

def maskSum (roles : RoleRows) : ℕ := (roles.map (·.2.toNat)).sum

def clearLeader (roles : RoleRows) : RoleRows := roles.map fun p => (p.1, p.2 &&& ~~~PLAYER_ROLE_LEADER)

/-- `LFGMgr::CheckGroupRoles`: the code of the combination, 0 for none, and the map it leaves. -/
def checkGroupRoles (roles : RoleRows) : ℕ × RoleRows :=
  let roles := clearLeader roles
  checkRoles (maskSum roles + 1) roles

/-! ### The depth is enough -/

theorem maskSum_append (a b : RoleRows) : maskSum (a ++ b) = maskSum a + maskSum b := by
  simp [maskSum]

theorem maskSum_cons (p : ℕ × Role) (a : RoleRows) : maskSum (p :: a) = p.2.toNat + maskSum a := by
  simp [maskSum]

def ROLES : List Role := [PLAYER_ROLE_DAMAGE, PLAYER_ROLE_HEALER, PLAYER_ROLE_TANK]

theorem sub_role (r : Role) : ∀ role ∈ ROLES, r &&& role ≠ 0 →
    (r - role).toNat < r.toNat ∧ (r - role) &&& r = r - role := by
  have hmasks : ∀ role ∈ ROLES, ∀ n : Fin (2 ^ 8), BitVec.ofFin n &&& role ≠ 0 →
      (BitVec.ofFin n - role).toNat < n.val ∧
        (BitVec.ofFin n - role) &&& BitVec.ofFin n = BitVec.ofFin n - role := by
    decide +kernel
  exact fun role hrole => hmasks role hrole r.toFin

variable {p : ℕ × Role}

variable {f g : RoleRows → ℕ × RoleRows}

theorem takeRole_congr {seen rest : RoleRows}
    (h : ∀ roles, maskSum roles < maskSum (seen ++ p :: rest) → f roles = g roles) {role : Role}
    (hrole : role ∈ ROLES) (needed count : ℕ) :
    takeRole f seen p rest role needed count = takeRole g seen p rest role needed count := by
  by_cases hbit : p.2 &&& role = 0
  · simp [takeRole, hbit]
  · have hsmall : maskSum (seen ++ (p.1, p.2 - role) :: rest) < maskSum (seen ++ p :: rest) := by
      have hlt := (sub_role p.2 role hrole hbit).1
      simp only [maskSum_append, maskSum_cons]
      omega
    simp only [takeRole, h _ hsmall]

theorem roleLoop_congr (rest seen : RoleRows)
    (h : ∀ roles, maskSum roles < maskSum (seen ++ rest) → f roles = g roles) (damage healer tank : ℕ) :
    roleLoop f seen rest damage healer tank = roleLoop g seen rest damage healer tank := by
  induction rest generalizing seen damage healer tank with
  | nil => rfl
  | cons p rest ih =>
    have hrest := ih (seen ++ [p]) (by rwa [List.append_assoc])
    simp only [roleLoop]
    rw [takeRole_congr h (by decide), takeRole_congr h (by decide), takeRole_congr h (by decide)]
    simp only [hrest]

theorem checkRoles_depth (n m : ℕ) (roles : RoleRows) (hn : maskSum roles < n)
    (hm : maskSum roles < m) : checkRoles n roles = checkRoles m roles := by
  induction n generalizing m roles with
  | zero => omega
  | succ n ih =>
    cases m with
    | zero => omega
    | succ m =>
      simp only [checkRoles]
      split
      · rfl
      · apply roleLoop_congr
        intro roles' hlt
        rw [List.nil_append] at hlt
        exact ih m roles' (by omega) (by omega)

/-! ### What a passed check has found -/

def Narrows (selected assigned : RoleRows) : Prop :=
  List.Forall₂ (fun p p' : ℕ × Role => p'.1 = p.1 ∧ p'.2 &&& p.2 = p'.2) selected assigned

theorem Narrows.refl (roles : RoleRows) : Narrows roles roles :=
  List.forall₂_same.mpr fun _ _ => ⟨rfl, BitVec.and_self⟩

theorem Narrows.trans {a b c : RoleRows} (h : Narrows a b) (h' : Narrows b c) : Narrows a c := by
  induction h generalizing c with
  | nil => exact h'
  | cons hp _ ih =>
    cases h' with
    | cons hp' h' =>
      refine List.Forall₂.cons ⟨hp'.1.trans hp.1, ?_⟩ (ih h')
      rw [← hp'.2, BitVec.and_assoc, hp.2]

variable {selected assigned : RoleRows}

theorem Narrows.map_fst (h : Narrows selected assigned) : assigned.map Prod.fst = selected.map Prod.fst := by
  induction h with
  | nil => rfl
  | cons hp _ ih => rw [List.map_cons, List.map_cons, hp.1, ih]

theorem Narrows.exists_mask (h : Narrows selected assigned)
    {x : ℕ × Role} (hx : x ∈ assigned) :
    ∃ mask, (x.1, mask) ∈ selected ∧ x.2 &&& mask = x.2 := by
  induction h with
  | nil => cases hx
  | @cons p p' _ _ hp _ ih =>
    rcases List.mem_cons.mp hx with rfl | hx
    · exact ⟨p.2, hp.1 ▸ List.mem_cons_self, hp.2⟩
    · obtain ⟨mask, hmem, hmask⟩ := ih hx
      exact ⟨mask, List.mem_cons_of_mem p hmem, hmask⟩

def countRole (role : Role) (roles : RoleRows) : ℕ := roles.countP fun p => p.2 = role

theorem countRole_snoc (role : Role) (roles : RoleRows) (p : ℕ × Role) :
    countRole role (roles ++ [p]) = countRole role roles + if p.2 = role then 1 else 0 := by
  simp [countRole, List.countP_cons]

structure Fits (code : ℕ) (roles : RoleRows) : Prop where
  code_eq : code = 8 * countRole PLAYER_ROLE_TANK roles + 4 * countRole PLAYER_ROLE_HEALER roles +
    countRole PLAYER_ROLE_DAMAGE roles
  tanks : countRole PLAYER_ROLE_TANK roles ≤ LFG_TANKS_NEEDED
  healers : countRole PLAYER_ROLE_HEALER roles ≤ LFG_HEALERS_NEEDED
  dps : countRole PLAYER_ROLE_DAMAGE roles ≤ LFG_DPS_NEEDED
  all : countRole PLAYER_ROLE_TANK roles + countRole PLAYER_ROLE_HEALER roles +
    countRole PLAYER_ROLE_DAMAGE roles = roles.length

theorem countRoles_le (roles : RoleRows) :
    countRole PLAYER_ROLE_TANK roles + countRole PLAYER_ROLE_HEALER roles +
      countRole PLAYER_ROLE_DAMAGE roles ≤ roles.length ∧
    ((∃ p ∈ roles, p.2 ≠ PLAYER_ROLE_TANK ∧ p.2 ≠ PLAYER_ROLE_HEALER ∧ p.2 ≠ PLAYER_ROLE_DAMAGE) →
      countRole PLAYER_ROLE_TANK roles + countRole PLAYER_ROLE_HEALER roles +
        countRole PLAYER_ROLE_DAMAGE roles < roles.length) := by
  induction roles using List.reverseRecOn with
  | nil => simp [countRole]
  | append_singleton roles p ih =>
    have h1 : PLAYER_ROLE_TANK ≠ PLAYER_ROLE_HEALER := by decide
    have h2 : PLAYER_ROLE_TANK ≠ PLAYER_ROLE_DAMAGE := by decide
    have h3 : PLAYER_ROLE_HEALER ≠ PLAYER_ROLE_DAMAGE := by decide
    obtain ⟨hle, hlt⟩ := ih
    simp only [countRole_snoc, List.length_append, List.length_singleton]
    constructor
    · split_ifs <;> simp_all <;> omega
    · rintro ⟨p', hp', hne⟩
      rcases List.mem_append.mp hp' with hold | hlast
      · have hlt := hlt ⟨p', hold, hne⟩
        split_ifs <;> simp_all <;> omega
      · rw [List.mem_singleton] at hlast
        subst hlast
        simp only [hne.1, hne.2.1, hne.2.2, if_false]
        omega

theorem Fits.role_mem {code : ℕ} {roles : RoleRows} (h : Fits code roles)
    (hp : p ∈ roles) :
    p.2 = PLAYER_ROLE_TANK ∨ p.2 = PLAYER_ROLE_HEALER ∨ p.2 = PLAYER_ROLE_DAMAGE := by
  by_contra hne
  simp only [not_or] at hne
  have hlt := (countRoles_le roles).2 ⟨p, hp, hne⟩
  have hall := h.all
  omega

def Sound (roles : RoleRows) (result : ℕ × RoleRows) : Prop :=
  result.1 ≠ 0 → Narrows roles result.2 ∧ Fits result.1 result.2

variable {recurse : RoleRows → ℕ × RoleRows}

theorem takeRole_spec {seen rest : RoleRows}
    (h : ∀ roles, roles.length = (seen ++ p :: rest).length → Sound roles (recurse roles)) {role : Role}
    (hrole : role ∈ ROLES) (needed : ℕ)
    (hcount : countRole role seen ≤ needed) :
    (∃ result, takeRole recurse seen p rest role needed (countRole role seen) = .inl result ∧
      Sound (seen ++ p :: rest) result) ∨
    (takeRole recurse seen p rest role needed (countRole role seen) =
        .inr (countRole role (seen ++ [p])) ∧ countRole role (seen ++ [p]) ≤ needed) := by
  have hzero : ∀ role ∈ ROLES, role &&& role ≠ 0 := by decide
  rw [countRole_snoc, takeRole]
  split
  · rename_i hbit
    have hne : p.2 ≠ role := fun heq => hzero role hrole (heq ▸ hbit)
    exact .inr (by simp [hne, hcount])
  · rename_i hbit
    split
    · rename_i hne
      dsimp only
      split
      · rename_i hfound
        refine .inl ⟨_, rfl, fun _ => ?_⟩
        obtain ⟨hnarrow, hfits⟩ := h _ (by simp) hfound
        refine ⟨Narrows.trans ?_ hnarrow, hfits⟩
        refine List.rel_append (Narrows.refl seen) (List.Forall₂.cons ⟨rfl, ?_⟩ (Narrows.refl rest))
        exact (sub_role p.2 role hrole hbit).2
      · exact .inr (by simp [hcount])
    · rename_i heq
      rw [not_not] at heq
      split
      · exact .inl ⟨_, rfl, fun hfound => absurd rfl hfound⟩
      · rename_i hfull
        refine .inr ⟨rfl, ?_⟩
        omega

/-- The counts never meet `uint8(groles.size())` where it is not the number of players. -/
def SizeTold (n : ℕ) : Prop := n ≤ 5 ∨ n % 256 = 0 ∨ 5 < n % 256

theorem roleLoop_sound {n : ℕ} (hn : SizeTold n)
    (h : ∀ roles, roles.length = n → Sound roles (recurse roles)) (rest seen : RoleRows)
    (hlen : (seen ++ rest).length = n) (htanks : countRole PLAYER_ROLE_TANK seen ≤ LFG_TANKS_NEEDED)
    (hhealers : countRole PLAYER_ROLE_HEALER seen ≤ LFG_HEALERS_NEEDED)
    (hdps : countRole PLAYER_ROLE_DAMAGE seen ≤ LFG_DPS_NEEDED) :
    Sound (seen ++ rest) (roleLoop recurse seen rest (countRole PLAYER_ROLE_DAMAGE seen)
      (countRole PLAYER_ROLE_HEALER seen) (countRole PLAYER_ROLE_TANK seen)) := by
  induction rest generalizing seen with
  | nil =>
    rw [List.append_nil] at hlen ⊢
    rw [roleLoop]
    split
    · rename_i hall
      intro hfound
      rw [hlen] at hall
      rw [LFG_TANKS_NEEDED] at htanks
      rw [LFG_HEALERS_NEEDED] at hhealers
      rw [LFG_DPS_NEEDED] at hdps
      have hsize : n % 256 = n := by
        unfold SizeTold at hn
        omega
      exact ⟨Narrows.refl seen, rfl, htanks, hhealers, hdps, by rw [hall, hsize, hlen]⟩
    · exact fun hfound => absurd rfl hfound
  | cons p rest ih =>
    have hrec : ∀ roles, roles.length = (seen ++ p :: rest).length → Sound roles (recurse roles) :=
      fun roles hl => h roles (hl.trans hlen)
    rw [roleLoop]
    split
    · exact fun hfound => absurd rfl hfound
    · rcases takeRole_spec hrec (by decide) LFG_DPS_NEEDED hdps with ⟨r, hr, hs⟩ | ⟨hd, hdps'⟩
      · rw [hr]
        exact hs
      rcases takeRole_spec hrec (by decide) LFG_HEALERS_NEEDED hhealers with ⟨r, hr, hs⟩ | ⟨hh, hhealers'⟩
      · rw [hd, hr]
        exact hs
      rcases takeRole_spec hrec (by decide) LFG_TANKS_NEEDED htanks with ⟨r, hr, hs⟩ | ⟨ht, htanks'⟩
      · rw [hd, hh, hr]
        exact hs
      rw [hd, hh, ht, List.append_cons]
      exact ih (seen ++ [p]) (by rwa [← List.append_cons]) htanks' hhealers' hdps'

theorem checkRoles_sound (n : ℕ) (roles : RoleRows) (hlen : SizeTold roles.length) :
    Sound roles (checkRoles n roles) := by
  induction n generalizing roles with
  | zero => exact fun hfound => absurd rfl hfound
  | succ n ih =>
    rw [checkRoles]
    split
    · exact fun hfound => absurd rfl hfound
    · exact roleLoop_sound hlen (fun roles' hl => ih roles' (hl ▸ hlen)) roles [] rfl
        (by decide) (by decide) (by decide)

theorem checkGroupRoles_sound (roles : RoleRows) (hlen : SizeTold roles.length)
    (h : (checkGroupRoles roles).1 ≠ 0) :
    Narrows roles (checkGroupRoles roles).2 ∧ Fits (checkGroupRoles roles).1 (checkGroupRoles roles).2 := by
  have hclear : Narrows roles (clearLeader roles) := by
    rw [Narrows, clearLeader, List.forall₂_map_right_iff]
    refine List.forall₂_same.mpr fun p _ => ⟨rfl, ?_⟩
    rw [BitVec.and_assoc, BitVec.and_comm _ p.2, ← BitVec.and_assoc, BitVec.and_self]
  have hl : SizeTold (clearLeader roles).length := by
    rw [clearLeader, List.length_map]
    exact hlen
  obtain ⟨hnarrow, hfits⟩ := checkRoles_sound _ (clearLeader roles) hl h
  exact ⟨hclear.trans hnarrow, hfits⟩

end HysteriaCore.Dungeon

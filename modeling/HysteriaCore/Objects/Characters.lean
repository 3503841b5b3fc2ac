import HysteriaCore.Lib.KeyedList
import HysteriaCore.Objects.Money

/-!
# Characters and their purses
-/

namespace HysteriaCore.Objects
open Lib

structure Character where
  guid : ℕ
  account : ℕ
  online : Bool
  money : ℕ
deriving DecidableEq

def Character.modifyMoney (amount : ℤ) (c : Character) : Character :=
  { c with money := (Objects.modifyMoney c.money amount).2 }

@[simp] theorem Character.modifyMoney_guid (amount : ℤ) (c : Character) : (c.modifyMoney amount).guid = c.guid := by
  unfold Character.modifyMoney
  rfl

@[simp] theorem Character.modifyMoney_online (amount : ℤ) (c : Character) :
    (c.modifyMoney amount).online = c.online := by
  unfold Character.modifyMoney
  rfl

@[simp] theorem Character.modifyMoney_account (amount : ℤ) (c : Character) :
    (c.modifyMoney amount).account = c.account := by
  unfold Character.modifyMoney
  rfl

abbrev Characters := KeyedList Character.guid

namespace Characters
variable (cs : Characters)

def mailable (guid : ℕ) : Bool := (cs.find? guid).any fun c => c.online || decide (c.account ≠ 0)

def isOnline (guid : ℕ) : Bool := (cs.find? guid).any fun c => c.online

def accountOf (guid : ℕ) : ℕ := ((cs.find? guid).map fun c => c.account).getD 0

def modifyMoney (guid : ℕ) (amount : ℤ) : Characters :=
  cs.adjust guid (Character.modifyMoney amount) (Character.modifyMoney_guid amount)

def pay (guid amount : ℕ) : Characters := cs.modifyMoney guid (-toInt32 amount)

def purses : ℕ := (cs.rows.map Character.money).sum

def Capped : Prop := ∀ c ∈ cs, c.guid ≠ 0 ∧ c.money ≤ maxMoneyAmount

variable {cs : Characters} {guid amount : ℕ} {player : Character}

theorem modifyMoney_find? (cs : Characters) (guid : ℕ) (amount : ℤ) (g : ℕ) :
    (cs.modifyMoney guid amount).find? g =
      (cs.find? g).map fun c => if g = guid then c.modifyMoney amount else c :=
  cs.find?_adjust guid g (Character.modifyMoney amount) (Character.modifyMoney_guid amount)

theorem modifyMoney_mailable (cs : Characters) (guid : ℕ) (amount : ℤ) (g : ℕ) :
    (cs.modifyMoney guid amount).mailable g = cs.mailable g := by
  unfold mailable
  rw [modifyMoney_find?]
  cases cs.find? g with
  | none => rfl
  | some c =>
    rw [Option.map_some, Option.any_some, Option.any_some]
    by_cases hg : g = guid
    · rw [if_pos hg, Character.modifyMoney_online, Character.modifyMoney_account]
    · rw [if_neg hg]

theorem mailable_of_online (hplayer : cs.find? guid = some player) (honline : player.online = true) :
    cs.mailable guid = true := by
  unfold mailable
  rw [hplayer, Option.any_some, honline]
  rfl

theorem Capped.find? (h : cs.Capped) (hplayer : cs.find? guid = some player) :
    guid ≠ 0 ∧ player.money ≤ maxMoneyAmount := by
  obtain ⟨hmem, hguid⟩ := (cs.find?_eq_some_iff guid player).mp hplayer
  exact ⟨hguid ▸ (h player hmem).1, (h player hmem).2⟩

theorem modifyMoney_purses (hplayer : cs.find? guid = some player) {amount : ℤ} {accepted : Bool} {money : ℕ}
    (hmoney : Objects.modifyMoney player.money amount = (accepted, money)) :
    (cs.modifyMoney guid amount).purses + player.money = cs.purses + money := by
  obtain ⟨hmem, rfl⟩ := (cs.find?_eq_some_iff guid player).mp hplayer
  have hsum := cs.sum_adjust Character.money hmem (Character.modifyMoney amount)
    (Character.modifyMoney_guid amount)
  have hafter : (player.modifyMoney amount).money = money := by
    unfold Character.modifyMoney
    rw [hmoney]
  rw [hafter] at hsum
  exact hsum

theorem modifyMoney_capped (h : cs.Capped) (hplayer : cs.find? guid = some player) {amount : ℤ} {accepted : Bool}
    {money : ℕ} (hmoney : Objects.modifyMoney player.money amount = (accepted, money))
    (hmax : money ≤ maxMoneyAmount) : (cs.modifyMoney guid amount).Capped := by
  obtain ⟨hmem, hguid⟩ := (cs.find?_eq_some_iff guid player).mp hplayer
  intro c hc
  obtain ⟨x, hx, rfl⟩ := (cs.mem_adjust guid (Character.modifyMoney amount)
    (Character.modifyMoney_guid amount) c).mp hc
  by_cases hxg : x.guid = guid
  · have heq : x = player := cs.eq_of_key_eq hx hmem (hxg.trans hguid.symm)
    subst heq
    rw [if_pos hxg]
    refine ⟨(Character.modifyMoney_guid amount x).symm ▸ (h x hx).1, ?_⟩
    unfold Character.modifyMoney
    rw [hmoney]
    exact hmax
  · rw [if_neg hxg]
    exact h x hx

theorem pay_purses (h : cs.Capped) (hplayer : cs.find? guid = some player) (hle : amount ≤ player.money) :
    (cs.pay guid amount).purses + amount = cs.purses := by
  have hsum := modifyMoney_purses hplayer (modifyMoney_payCast hle (h.find? hplayer).2)
  unfold pay
  omega

theorem pay_capped (h : cs.Capped) (hplayer : cs.find? guid = some player) (hle : amount ≤ player.money) :
    (cs.pay guid amount).Capped :=
  modifyMoney_capped h hplayer (modifyMoney_payCast hle (h.find? hplayer).2)
    ((Nat.sub_le _ _).trans (h.find? hplayer).2)

end Characters

end HysteriaCore.Objects

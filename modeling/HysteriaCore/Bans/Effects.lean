import HysteriaCore.Bans.Logon

/-!
# What a call about bans has to do

`Meets` says what the state after a call has to be for its answer, `Handled` is
the condition under which the routines do that and follow no `NULL` pointer.
-/

namespace HysteriaCore.Bans
open Lib

/-! ### The requirement -/

def BannedOnce (id : UInt32) (rows : List BanRow) : Prop := activeBans id rows = 1

def AccountKicked (l : Logon) (account : AccountId) (author : Bytes) : Prop :=
  ∀ s ∈ l.sessions, s.account = account → s.Kicked ∨ ∃ p ∈ s.player, p.name = author

def CharacterKicked (l : Logon) (guid : LowGuid) : Prop :=
  ∀ s ∈ l.sessions, (∃ p ∈ s.player, p.guid = guid) → s.Kicked

def NamesAccount (db : Database) (l : Logon) (mode : BanMode) (name : Bytes)
    (account : AccountId) : Prop :=
  match mode with
  | .account => account ∈ db.accountsByName name
  | .character =>
    account ∈ (db.charactersByName name).map CharacterRow.account ∨
      ∃ found ∈ l.findPlayerByName name, found.1.account = account
  | .ip | .unknown => False

def NamesCharacter (db : Database) (l : Logon) (name : Bytes) (guid : LowGuid) : Prop :=
  guid ∈ (db.charactersByName name).map CharacterRow.guid ∨
    ∃ found ∈ l.findPlayerByName name, found.2.guid = guid

def Meets (db : Database) (l : Logon) (call : Call) (answer : Answer) (l' : Logon) : Prop :=
  match call, answer with
  | .banAccount mode nameOrIP _ _ author, .ban .success =>
    ∀ account ∈ db.resultAccounts mode nameOrIP,
      (mode ≠ .ip → BannedOnce account l'.accountBanned) ∧ AccountKicked l' account author
  | .banAccountbyId account _ _ author, .ban .success =>
    BannedOnce account l'.accountBanned ∧ AccountKicked l' account author
  | .banCharacter name _ _ _, .ban .success =>
    ∀ guid ∈ l.pickCharacter db name,
      BannedOnce guid l'.characterBanned ∧ CharacterKicked l' guid
  | .removeBanAccount mode nameOrIP, .removed true =>
    ∀ account, NamesAccount db l mode nameOrIP account → activeBans account l'.accountBanned = 0
  | .removeBanCharacter name, .removed true =>
    ∀ guid, NamesCharacter db l name guid → activeBans guid l'.characterBanned = 0
  | _, _ => l' = l

def Effective (db : Database) (l : Logon) (call : ℕ × Call) : Prop :=
  ∃ answer l', execute db l call = some (answer, l') ∧ Meets db l call.2 answer l'

/-! ### The condition -/

/-- Every session that a ban of accounts finds has a player, a session without one was kicked
before its account is banned by id, a character that is found by a part of its name was kicked,
the character whose account is unbanned is online, and nothing else of the name that is unbanned
has an active ban. -/
def Handled (db : Database) (l : Logon) : Call → Prop
  | .banAccount mode nameOrIP _ _ _ =>
    ∀ account ∈ db.resultAccounts mode nameOrIP, ∀ s ∈ l.findSession account, s.player ≠ none
  | .banAccountbyId account _ _ _ =>
    ∀ s ∈ l.findSession account, s.player = none → s.Kicked
  | .banCharacter name _ _ _ =>
    l.findPlayerByName name = none → ∀ guid ∈ db.guidByNameFilter name, CharacterKicked l guid
  | .removeBanAccount mode nameOrIP =>
    (mode = .character → l.findPlayerByName nameOrIP ≠ none) ∧
    ∀ account ∈ l.unbanAccount db mode nameOrIP, account ≠ 0 →
      ∀ other, NamesAccount db l mode nameOrIP other → other ≠ account →
        activeBans other l.accountBanned = 0
  | .removeBanCharacter name =>
    ∀ guid ∈ l.pickCharacter db name, guid ≠ 0 →
      ∀ other, NamesCharacter db l name other → other ≠ guid →
        activeBans other l.characterBanned = 0

/-! ### The ban tables -/

@[simp] theorem activeBans_notBanned_self (id : UInt32) (rows : List BanRow) :
    activeBans id (notBanned id rows) = 0 := by
  unfold activeBans notBanned
  rw [List.countP_eq_zero]
  intro row hrow
  obtain ⟨old, _, rfl⟩ := List.mem_map.mp hrow
  split
  · simp
  · rename_i h
    simpa using h

theorem activeBans_notBanned_of_ne {id other : UInt32} (h : other ≠ id) (rows : List BanRow) :
    activeBans other (notBanned id rows) = activeBans other rows := by
  unfold activeBans notBanned
  rw [List.countP_map]
  refine List.countP_congr fun row _ => ?_
  simp only [Function.comp]
  split
  · rename_i hrow
    have hne : row.id ≠ other := fun heq => h (heq.symm.trans hrow.1)
    simp [hne]
  · rfl

theorem activeBans_append (id : UInt32) (rows : List BanRow) (row : BanRow) :
    activeBans id (rows ++ [row]) =
      activeBans id rows + if row.id = id ∧ row.active then 1 else 0 := by
  unfold activeBans
  rw [List.countP_append, List.countP_singleton]
  by_cases h : row.id = id ∧ row.active = true <;> simp [h]

theorem bannedOnce_ban (row : BanRow) (hactive : row.active = true) (rows : List BanRow) :
    BannedOnce row.id (ban row rows) := by
  rw [BannedOnce, ban, activeBans_append, activeBans_notBanned_self]
  simp [hactive]

variable {row : BanRow}

theorem activeBans_ban_of_ne {other : UInt32} (h : other ≠ row.id)
    (rows : List BanRow) : activeBans other (ban row rows) = activeBans other rows := by
  rw [ban, activeBans_append, activeBans_notBanned_of_ne h, if_neg fun heq => h heq.1.symm]
  simp

/-! ### Sessions -/

namespace Logon

variable {l : Logon}

variable {account : AccountId}

theorem findSession_eq_some {s : Session} : l.findSession account = some s ↔ s ∈ l.sessions ∧ s.account = account :=
  l.sessions.find?_eq_some_iff account s

theorem findSession_kick (account other : AccountId) :
    (l.kick account).findSession other =
      (l.findSession other).map fun s => if other = account then s.kickPlayer else s :=
  l.sessions.find?_adjust account other Session.kickPlayer (fun _ => rfl)

theorem mem_kick {s : Session} (h : s ∈ (l.kick account).sessions) :
    (s.account = account ∧ s.Kicked) ∨ (s.account ≠ account ∧ s ∈ l.sessions) := by
  obtain ⟨x, hx, rfl⟩ := (l.sessions.mem_adjust account Session.kickPlayer (fun _ => rfl) s).mp h
  split
  · rename_i hacc
    exact .inl ⟨hacc, x.kicked_kickPlayer⟩
  · rename_i hacc
    exact .inr ⟨hacc, hx⟩

theorem findPlayerByName_spec {name : Bytes} {found : Session × Player}
    (h : l.findPlayerByName name = some found) :
    found.1 ∈ l.sessions ∧ found.1.player = some found.2 := by
  obtain ⟨s, hs, hfound⟩ := List.exists_of_findSome?_eq_some h
  obtain ⟨p, hp, rfl⟩ := Option.map_eq_some_iff.mp hfound
  exact ⟨hs, (Option.filter_eq_some_iff.mp hp).1⟩

/-! ### The loop -/

@[simp] theorem sessions_recordBan (mode : BanMode) (row : BanRow) :
    (l.recordBan mode row).sessions = l.sessions := by
  unfold recordBan
  split <;> rfl

@[simp] theorem findSession_recordBan (mode : BanMode) (row : BanRow) (account : AccountId) :
    (l.recordBan mode row).findSession account = l.findSession account := by
  rw [findSession, sessions_recordBan, findSession]

theorem player_findSession_kick (account other : AccountId) :
    ((l.kick account).findSession other).map Session.player =
      (l.findSession other).map Session.player := by
  rw [findSession_kick, Option.map_map]
  congr 1
  funext s
  simp only [Function.comp]
  split <;> rfl

theorem isSome_banAccounts (mode : BanMode) (row : AccountId → BanRow) (author : Bytes)
    (accounts : List AccountId) (l : Logon) :
    (banAccounts mode row author accounts l).isSome ↔
      ∀ account ∈ accounts, ∀ s ∈ l.findSession account, s.player ≠ none := by
  induction accounts generalizing l with
  | nil => simp [banAccounts]
  | cons account accounts ih =>
    rw [List.forall_mem_cons]
    cases hfind : l.findSession account with
    | none => simp [banAccounts, hfind, ih]
    | some sess =>
      cases hplayer : sess.player with
      | none => simp [banAccounts, hfind, hplayer]
      | some player =>
        have hkick : ∀ other, (∀ s ∈ ((l.recordBan mode (row account)).kick account).findSession
            other, s.player ≠ none) ↔ ∀ s ∈ l.findSession other, s.player ≠ none := by
          intro other
          have hsame := player_findSession_kick (l := l.recordBan mode (row account)) account other
          rw [findSession_recordBan] at hsame
          cases h1 : ((l.recordBan mode (row account)).kick account).findSession other <;>
            cases h2 : l.findSession other <;> simp_all
        simp only [banAccounts, findSession_recordBan, hfind, hplayer, Option.bind_some]
        have hfound : ∀ s ∈ some sess, s.player ≠ none := by simp [hplayer]
        rw [and_iff_right hfound]
        split
        · rw [ih]
          exact forall₂_congr fun other _ => hkick other
        · simp [ih]

def Done (mode : BanMode) (author : Bytes) (account : AccountId) (l : Logon) : Prop :=
  (mode ≠ .ip → BannedOnce account l.accountBanned) ∧ AccountKicked l account author

variable {mode : BanMode} {author : Bytes}

theorem Done.recordBan
    (hactive : row.active = true) (h : Done mode author account l) :
    Done mode author account (l.recordBan mode row) := by
  refine ⟨fun hmode => ?_, fun s hs => h.2 s (by simpa using hs)⟩
  rw [Logon.recordBan, if_pos hmode]
  by_cases hid : account = row.id
  · subst hid
    exact bannedOnce_ban _ hactive _
  · rw [BannedOnce, activeBans_ban_of_ne hid]
    exact h.1 hmode

theorem Done.kick (other : AccountId) (h : Done mode author account l) : Done mode author account (l.kick other) := by
  refine ⟨h.1, fun s hs hacc => ?_⟩
  rcases mem_kick hs with ⟨_, hkicked⟩ | ⟨_, hold⟩
  · exact .inl hkicked
  · exact h.2 s hold hacc

theorem bannedOnce_recordBan (hactive : row.active = true)
    (hmode : mode ≠ .ip) : BannedOnce row.id (l.recordBan mode row).accountBanned := by
  rw [Logon.recordBan, if_pos hmode]
  exact bannedOnce_ban _ hactive _

theorem banAccounts_spec {row : AccountId → BanRow}
    (hrow : ∀ account, (row account).id = account ∧ (row account).active = true)
    {accounts : List AccountId} (done : List AccountId) {l l' : Logon} (hdone : ∀ account ∈ done, Done mode author account l)
    (h : banAccounts mode row author accounts l = some l') :
    ∀ account ∈ done ++ accounts, Done mode author account l' := by
  induction accounts generalizing l done with
  | nil =>
    obtain rfl := Option.some.inj h
    simpa using hdone
  | cons account accounts ih =>
    have hnext : ∀ l1 : Logon, Done mode author account l1 →
        (∀ other ∈ done, Done mode author other l1) →
        banAccounts mode row author accounts l1 = some l' →
        ∀ other ∈ done ++ account :: accounts, Done mode author other l' := by
      intro l1 hthis hothers hrest
      have hall := ih (done ++ [account]) (show ∀ other ∈ done ++ [account], Done mode author other l1 by
        intro other hother
        rcases List.mem_append.mp hother with hold | hnew
        · exact hothers other hold
        · rw [List.mem_singleton.mp hnew]
          exact hthis) hrest
      simpa using hall
    have hrecorded : ∀ other ∈ done, Done mode author other (l.recordBan mode (row account)) :=
      fun other hother => (hdone other hother).recordBan (hrow account).2
    have honce : mode ≠ .ip → BannedOnce account (l.recordBan mode (row account)).accountBanned := by
      intro hmode
      have := bannedOnce_recordBan (l := l) (hrow account).2 hmode
      rwa [(hrow account).1] at this
    simp only [banAccounts, findSession_recordBan] at h
    cases hfind : l.findSession account with
    | none =>
      rw [hfind] at h
      refine hnext _ ⟨honce, fun s hs hacc => ?_⟩ hrecorded h
      have hnone := (l.sessions.find?_eq_none_iff account).mp hfind
      exact absurd hacc (hnone s (by simpa using hs))
    | some sess =>
      rw [hfind] at h
      obtain ⟨player, hplayer, h⟩ := Option.bind_eq_some_iff.mp h
      split at h
      · refine hnext ((l.recordBan mode (row account)).kick account)
          ⟨honce, fun s hs hacc => ?_⟩ (fun other hother => (hrecorded other hother).kick _) h
        rcases mem_kick hs with ⟨_, hkicked⟩ | ⟨hne, _⟩
        · exact .inl hkicked
        · exact absurd hacc hne
      · rename_i hauthor
        refine hnext _ ⟨honce, fun s hs hacc => .inr ⟨player, ?_, not_not.mp hauthor⟩⟩ hrecorded h
        have hsess := findSession_eq_some.mpr ⟨by simpa using hs, hacc⟩
        rw [hfind] at hsess
        rw [← Option.some.inj hsess]
        exact hplayer

end Logon

end HysteriaCore.Bans

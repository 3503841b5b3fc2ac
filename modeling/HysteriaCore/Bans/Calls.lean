import HysteriaCore.Bans.Effects

/-!
# Calls that do what they have to

For every call the requirement holds of the routine exactly under the condition,
and so it does along every sequence of calls.
-/

namespace HysteriaCore.Bans
open Lib Logon

variable {db : Database} {l : Logon}

theorem exists_banAccounts {mode : BanMode} {row : AccountId → BanRow} {author : Bytes}
    (hrow : ∀ account, (row account).id = account ∧ (row account).active = true)
    (accounts : List AccountId) {l0 : Logon} (hsessions : l0.sessions = l.sessions) :
    (∃ l', banAccounts mode row author accounts l0 = some l' ∧
        ∀ account ∈ accounts, Done mode author account l') ↔
      ∀ account ∈ accounts, ∀ s ∈ l.findSession account, s.player ≠ none := by
  have hfind : ∀ account, l0.findSession account = l.findSession account := by
    intro account
    rw [findSession, hsessions, findSession]
  constructor
  · rintro ⟨l', hl', _⟩ account hacc s hs
    have hsome := (isSome_banAccounts mode row author accounts l0).mp (by rw [hl']; rfl) account
      hacc s
    exact hsome (by rwa [hfind])
  · intro h
    have hsome := (isSome_banAccounts mode row author accounts l0).mpr
      fun account hacc s hs => h account hacc s (by rwa [hfind] at hs)
    obtain ⟨l', hl'⟩ := Option.isSome_iff_exists.mp hsome
    refine ⟨l', hl', fun account hacc => ?_⟩
    exact banAccounts_spec hrow [] (by simp) hl' account (by simpa using hacc)

theorem effective_iff {call : ℕ × Call} {answer : Answer} {l' : Logon}
    (h : execute db l call = some (answer, l')) :
    Effective db l call ↔ Meets db l call.2 answer l' := by
  unfold Effective
  rw [h]
  simp

theorem effective_banAccount (now : ℕ) (mode : BanMode) (nameOrIP duration reason author : Bytes) :
    Effective db l (now, .banAccount mode nameOrIP duration reason author) ↔
      Handled db l (.banAccount mode nameOrIP duration reason author) := by
  let row : AccountId → BanRow := fun account =>
    ⟨account, now, now + timeStringToSecs duration, author, reason, true⟩
  -- the loop runs
  have hloop : ∀ l0 : Logon, l0.sessions = l.sessions →
      execute db l (now, .banAccount mode nameOrIP duration reason author) =
        (banAccounts mode row author (db.resultAccounts mode nameOrIP) l0).map
          (fun l => (.ban .success, l)) →
      (Effective db l (now, .banAccount mode nameOrIP duration reason author) ↔
        Handled db l (.banAccount mode nameOrIP duration reason author)) := by
    intro l0 hsessions hexec
    have hruns : (∃ l', banAccounts mode row author (db.resultAccounts mode nameOrIP) l0 = some l' ∧
        ∀ account ∈ db.resultAccounts mode nameOrIP, Done mode author account l') ↔
          Handled db l (.banAccount mode nameOrIP duration reason author) :=
      exists_banAccounts (fun _ => ⟨rfl, rfl⟩) _ hsessions
    refine Iff.trans ?_ hruns
    constructor
    · rintro ⟨answer, l', h, hmeets⟩
      rw [hexec] at h
      obtain ⟨l'', hl, heq⟩ := Option.map_eq_some_iff.mp h
      obtain ⟨rfl, rfl⟩ := Prod.mk.inj heq
      exact ⟨l'', hl, hmeets⟩
    · rintro ⟨l', hl, hdone⟩
      exact ⟨.ban .success, l', by rw [hexec, hl]; rfl, hdone⟩
  -- no account is found
  have hnone : db.resultAccounts mode nameOrIP = [] →
      Handled db l (.banAccount mode nameOrIP duration reason author) := by
    intro hempty account hacc
    rw [hempty] at hacc
    cases hacc
  -- an account or a character is named
  have hnamed : execute db l (now, .banAccount mode nameOrIP duration reason author) =
        (if db.resultAccounts mode nameOrIP = [] then some (.notFound, l)
          else (banAccounts mode row author (db.resultAccounts mode nameOrIP) l).map
            fun l => (.success, l)).map (fun x => (.ban x.1, x.2)) →
      (Effective db l (now, .banAccount mode nameOrIP duration reason author) ↔
        Handled db l (.banAccount mode nameOrIP duration reason author)) := by
    intro hexec
    by_cases hempty : db.resultAccounts mode nameOrIP = []
    · rw [if_pos hempty] at hexec
      exact (effective_iff hexec).trans (iff_of_true rfl (hnone hempty))
    · rw [if_neg hempty, Option.map_map] at hexec
      exact hloop l rfl hexec
  cases mode with
  | unknown =>
    have hexec : execute db l (now, .banAccount .unknown nameOrIP duration reason author) =
        some (.ban .syntaxError, l) := rfl
    exact (effective_iff hexec).trans (iff_of_true rfl (hnone rfl))
  | ip =>
    let l0 : Logon := { l with
      ipBanned := l.ipBanned ++ [⟨nameOrIP, now, now + timeStringToSecs duration, author, reason⟩] }
    exact hloop l0 rfl (Option.map_map ..)
  | account => exact hnamed rfl
  | character => exact hnamed rfl

theorem accountKicked_iff {account : AccountId} {author : Bytes} :
    AccountKicked l account author ↔
      ∀ s ∈ l.findSession account, s.Kicked ∨ ∃ p ∈ s.player, p.name = author := by
  constructor
  · intro h s hs
    obtain ⟨hmem, hacc⟩ := findSession_eq_some.mp hs
    exact h s hmem hacc
  · intro h s hmem hacc
    exact h s (findSession_eq_some.mpr ⟨hmem, hacc⟩)

theorem effective_banAccountbyId (now : ℕ) (account : AccountId) (duration : ℤ)
    (reason author : Bytes) :
    Effective db l (now, .banAccountbyId account duration reason author) ↔
      Handled db l (.banAccountbyId account duration reason author) := by
  let row : BanRow := ⟨account, now, now + (duration % 2 ^ 32).toNat, author, reason, true⟩
  let l' : Logon := { l with accountBanned := ban row l.accountBanned }
  have honce : BannedOnce account l'.accountBanned := bannedOnce_ban row rfl _
  have hsame : l'.findSession account = l.findSession account := rfl
  cases hplayer : (l.findSession account).bind Session.player with
  | none =>
    have hexec : execute db l (now, .banAccountbyId account duration reason author) =
        some (.ban .success, l') := by
      simp only [execute, Logon.banAccountbyId, hplayer]
      rfl
    refine (effective_iff hexec).trans ((and_iff_right honce).trans ?_)
    rw [accountKicked_iff, hsame]
    refine forall₂_congr fun s hs => ?_
    have hnone : s.player = none := by
      rw [Option.mem_def.mp hs] at hplayer
      exact hplayer
    simp [hnone]
  | some plr =>
    obtain ⟨s, hs, hs'⟩ := Option.bind_eq_some_iff.mp hplayer
    have hexec : execute db l (now, .banAccountbyId account duration reason author) =
        some (.ban .success, if plr.name ≠ author then l'.kick account else l') := by
      simp only [execute, Logon.banAccountbyId, hplayer]
      rfl
    have hhandled : Handled db l (.banAccountbyId account duration reason author) := by
      intro s' hs'' hnone
      rw [hs] at hs''
      obtain rfl := Option.some.inj hs''
      rw [hs'] at hnone
      cases hnone
    refine (effective_iff hexec).trans (iff_of_true ?_ hhandled)
    split
    · refine ⟨honce, fun x hx hacc => ?_⟩
      rcases mem_kick hx with ⟨_, hkicked⟩ | ⟨hne, _⟩
      · exact .inl hkicked
      · exact absurd hacc hne
    · rename_i hauthor
      refine ⟨honce, accountKicked_iff.mpr fun x hx => .inr ⟨plr, ?_, not_not.mp hauthor⟩⟩
      rw [hsame, hs] at hx
      obtain rfl := Option.some.inj hx
      exact hs'

theorem activeBans_notBanned_eq_zero {id other : UInt32} {rows : List BanRow} :
    activeBans other (notBanned id rows) = 0 ↔ (other ≠ id → activeBans other rows = 0) := by
  by_cases h : other = id
  · simp [h]
  · rw [activeBans_notBanned_of_ne h]
    simp [h]

theorem effective_removeBanAccount (now : ℕ) (mode : BanMode) (nameOrIP : Bytes) :
    Effective db l (now, .removeBanAccount mode nameOrIP) ↔
      Handled db l (.removeBanAccount mode nameOrIP) := by
  -- the account is found, and the mode is no address
  have hfound : ∀ account, mode ≠ .ip → l.unbanAccount db mode nameOrIP = some account →
      (mode = .character → l.findPlayerByName nameOrIP ≠ none) →
      (Effective db l (now, .removeBanAccount mode nameOrIP) ↔
        Handled db l (.removeBanAccount mode nameOrIP)) := by
    intro account hmode hunban honline
    have hexec : execute db l (now, .removeBanAccount mode nameOrIP) =
        some (if account = 0 then (.removed false, l)
          else (.removed true, { l with accountBanned := notBanned account l.accountBanned })) := by
      cases mode with
      | ip => exact absurd rfl hmode
      | _ =>
        simp only [execute, removeBanAccount, hunban, Option.map_some]
        split <;> rfl
    simp only [Handled, hunban]
    by_cases hzero : account = 0
    · rw [if_pos hzero] at hexec
      refine (effective_iff hexec).trans (iff_of_true rfl ⟨honline, ?_⟩)
      intro account' hacc hne
      obtain rfl := Option.some.inj hacc
      exact absurd hzero hne
    · rw [if_neg hzero] at hexec
      refine (effective_iff hexec).trans ?_
      simp only [Meets, activeBans_notBanned_eq_zero]
      constructor
      · intro h
        refine ⟨honline, fun account' hacc _ other hnames hne => h other hnames ?_⟩
        rwa [Option.some.inj hacc]
      · rintro ⟨_, h⟩ other hnames hne
        exact h account rfl hzero other hnames hne
  cases mode with
  | ip =>
    have hexec : execute db l (now, .removeBanAccount .ip nameOrIP) = some (.removed true, { l with
        ipBanned := l.ipBanned.filter fun row => !db.same row.ip nameOrIP }) := rfl
    refine (effective_iff hexec).trans (iff_of_true ?_ ⟨by simp, ?_⟩)
    · intro account hnames
      exact absurd hnames (by simp [NamesAccount])
    · intro account hacc hne
      exact absurd (Option.some.inj hacc).symm hne
  | unknown => exact hfound 0 (by simp) rfl (by simp)
  | account => exact hfound _ (by simp) rfl (by simp)
  | character =>
    cases honline : l.findPlayerByName nameOrIP with
    | none =>
      refine iff_of_false ?_ fun h => h.1 rfl honline
      rintro ⟨answer, l', hexec, _⟩
      simp [execute, removeBanAccount, unbanAccount, honline] at hexec
    | some found =>
      exact hfound found.1.account (by simp) (by simp [unbanAccount, honline]) (by simp [honline])

theorem characterKicked_kick {name : Bytes} {found : Session × Player}
    (h : l.findPlayerByName name = some found) :
    CharacterKicked (l.kick found.1.account) found.2.guid := by
  obtain ⟨hsession, hplayer⟩ := findPlayerByName_spec h
  rintro s hs ⟨p, hp, hguid⟩
  rcases mem_kick hs with ⟨_, hkicked⟩ | ⟨hne, hold⟩
  · exact hkicked
  · exact absurd (l.onePlayer s hold found.1 hsession p hp found.2 hplayer hguid) hne

theorem effective_banCharacter (now : ℕ) (name duration reason author : Bytes) :
    Effective db l (now, .banCharacter name duration reason author) ↔
      Handled db l (.banCharacter name duration reason author) := by
  cases hfound : l.findPlayerByName name with
  | some found =>
    have hpick : l.pickCharacter db name = some found.2.guid := by simp [pickCharacter, hfound]
    let row : BanRow :=
      ⟨found.2.guid, now, now + timeStringToSecs duration, author, reason, true⟩
    let l' : Logon := { l with characterBanned := ban row l.characterBanned }
    have hexec : execute db l (now, .banCharacter name duration reason author) =
        some (.ban .success, l'.kick found.1.account) := by
      simp only [execute, banCharacter, hpick, hfound]
      rfl
    refine (effective_iff hexec).trans (iff_of_true ?_ (by simp [Handled, hfound]))
    intro guid hguid
    rw [hpick] at hguid
    obtain rfl := Option.some.inj hguid
    exact ⟨bannedOnce_ban row rfl _,
      characterKicked_kick (l := l') (show l'.findPlayerByName name = some found from hfound)⟩
  | none =>
    have hpick : l.pickCharacter db name = db.guidByNameFilter name := by
      simp [pickCharacter, hfound]
    cases hguid : db.guidByNameFilter name with
    | none =>
      have hexec : execute db l (now, .banCharacter name duration reason author) =
          some (.ban .notFound, l) := by
        simp [execute, banCharacter, hpick, hguid]
      exact (effective_iff hexec).trans (iff_of_true rfl (by simp [Handled, hguid]))
    | some guid =>
      let row : BanRow := ⟨guid, now, now + timeStringToSecs duration, author, reason, true⟩
      let l' : Logon := { l with characterBanned := ban row l.characterBanned }
      have hexec : execute db l (now, .banCharacter name duration reason author) =
          some (.ban .success, l') := by
        simp only [execute, banCharacter, hpick, hguid, hfound]
        rfl
      have honce : BannedOnce guid l'.characterBanned := bannedOnce_ban row rfl _
      refine (effective_iff hexec).trans ?_
      simp only [Meets, Handled, hpick, hguid, hfound, Option.mem_def, Option.some.injEq,
        forall_eq', true_implies]
      exact and_iff_right honce

theorem effective_removeBanCharacter (now : ℕ) (name : Bytes) :
    Effective db l (now, .removeBanCharacter name) ↔
      Handled db l (.removeBanCharacter name) := by
  cases hpick : l.pickCharacter db name with
  | none =>
    have hexec : execute db l (now, .removeBanCharacter name) = some (.removed false, l) := by
      simp [execute, removeBanCharacter, hpick]
    exact (effective_iff hexec).trans (iff_of_true rfl (by simp [Handled, hpick]))
  | some guid =>
    have hexec : execute db l (now, .removeBanCharacter name) =
        some (if guid = 0 then (.removed false, l)
          else (.removed true, { l with characterBanned := notBanned guid l.characterBanned })) := by
      simp only [execute, removeBanCharacter, hpick]
      split <;> rfl
    by_cases hzero : guid = 0
    · rw [if_pos hzero] at hexec
      exact (effective_iff hexec).trans (iff_of_true rfl (by simp [Handled, hpick, hzero]))
    · rw [if_neg hzero] at hexec
      refine (effective_iff hexec).trans ?_
      simp only [Meets, Handled, hpick, activeBans_notBanned_eq_zero, Option.mem_def,
        Option.some.injEq, forall_eq', ne_eq, hzero, not_false_eq_true, true_implies]

/-- Every call of a sequence is effective exactly if every one of them meets the condition in the
state before it. -/
theorem bans_effective (db : Database) (calls : List (ℕ × Call)) (l : Logon) :
    along (next db) (Effective db) calls l ↔
      along (next db) (fun l call => Handled db l call.2) calls l := by
  refine along_congr (fun l call => ?_) calls l
  obtain ⟨now, call⟩ := call
  cases call with
  | banAccount mode nameOrIP duration reason author => exact effective_banAccount ..
  | banAccountbyId account duration reason author => exact effective_banAccountbyId ..
  | removeBanAccount mode nameOrIP => exact effective_removeBanAccount ..
  | banCharacter name duration reason author => exact effective_banCharacter ..
  | removeBanCharacter name => exact effective_removeBanCharacter ..

def atCharacterScreen : Logon where
  sessions := ⟨[⟨1, none, false, false⟩], by decide⟩
  onePlayer := by
    intro s hs s' _ p hp
    obtain rfl := List.mem_singleton.mp hs
    cases hp
  accountBanned := []
  characterBanned := []
  ipBanned := []

/-- Banning that account by its name follows the player that is not there. -/
theorem ban_without_player : ¬∀ (db : Database) (calls : List (ℕ × Call)) (l : Logon),
    along (next db) (Effective db) calls l := by
  intro h
  obtain ⟨⟨answer, l', hexec, _⟩, _⟩ := h
    ⟨[⟨1, ascii "BOB", []⟩], [], fun a b => decide (a = b), fun _ _ => false⟩
    [(0, .banAccount .account (ascii "BOB") (ascii "1d") [] (ascii "Admin"))] atCharacterScreen
  cases hexec

end HysteriaCore.Bans

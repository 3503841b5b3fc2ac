import HysteriaCore.Auth.History

/-!
# The account a session key is written for

`LOGIN_UPD_LOGONPROOF` runs on any proof that matches the numbers of the connection. They
belong to the account in `_login` only after a logon challenge that passed, and the token is
looked at afterwards.
-/

namespace HysteriaCore.Auth
open Lib

/-- The challenge accepted last named the account of the key and passed its checks, the proof
was checked with that account's verifier and salt, and the token is right if there is one. -/
def Write.Proved (C : Crypto) (w : Write) : Prop :=
  ∃ e ch row, w.challenge = some (e, ch) ∧ ch.login = w.login ∧
    (e.db.ipBanned e.remoteAddress = false ∧ e.db.account ch.login = some row ∧
      (row.locked = 1 → cstr row.lastIp = cstr e.remoteAddress) ∧ e.db.banned row.id = none) ∧
    vsFields C e row = (some w.sock.v, some w.sock.s) ∧ matchesM1 C w.env w.sock w.lp = true ∧
    (row.tokenKey ≠ [] → atoi w.lp.token = generateToken C row.tokenKey w.env.time)

/-- A logon proof that would match comes after a logon challenge that passed and set `v` and
`s`, with no other account named since, and brings the right token if the account has one. -/
def FollowsChallenge (C : Crypto) (t : State) : Env × Command → Prop
  | (e, .logonProof (some lp)) =>
    reachesKey t.sock lp = true → matchesM1 C e t.sock lp = true →
      (∃ x ∈ t.hist.challenge, (passedRow x.1 x.2).isSome) ∧ t.hist.vsCurrent = true ∧
      (t.sock.tokenKey ≠ [] → atoi lp.token = generateToken C t.sock.tokenKey e.time)
  | _ => True

/-- A challenge that passed and is still current has its account in `_login` and in the
numbers. -/
structure KeyInv (C : Crypto) (t : State) : Prop where
  current : ∀ e ch row, t.hist.challenge = some (e, ch) → passedRow e ch = some row →
    t.hist.vsCurrent = true → ch.login = t.sock.login ∧
      vsFields C e row = (some t.sock.v, some t.sock.s) ∧ row.tokenKey = t.sock.tokenKey
  writes : ∀ w ∈ t.hist.writes, w.Proved C

section
variable {C : Crypto} {e : Env} {t t' : State}

theorem KeyInv.write (h : KeyInv C t) {lp : AuthLogonProof_C}
    (hok : FollowsChallenge C t (e, .logonProof (some lp))) (hk : reachesKey t.sock lp = true)
    (hm : matchesM1 C e t.sock lp = true) :
    Write.Proved C ⟨t.sock.login, e, t.sock, lp, t.hist.challenge⟩ := by
  obtain ⟨⟨⟨e', ch⟩, hch, hpass⟩, hcur, htoken⟩ := hok hk hm
  obtain ⟨row, hrow⟩ := Option.isSome_iff_exists.mp hpass
  obtain ⟨hlogin, hvs, hkey⟩ := h.current e' ch row hch hrow hcur
  refine ⟨e', ch, row, hch, hlogin, passedRow_eq_some hrow, hvs, hm, fun hne => ?_⟩
  rw [hkey] at hne ⊢
  exact htoken hne

theorem KeyInv.appendWrite {w : Write} (h : KeyInv C t) (hw : w.Proved C) :
    ∀ x ∈ t.hist.writes ++ [w], x.Proved C := by
  intro x hx
  rcases List.mem_append.mp hx with hx | hx
  · exact h.writes x hx
  · rw [List.mem_singleton.mp hx]
    exact hw

theorem KeyInv.step {x : Env × Command} (h : KeyInv C t) (hok : FollowsChallenge C t x)
    (hs : step C t x = some t') : KeyInv C t' := by
  obtain ⟨e, c⟩ := x
  cases step_served hs with
  | unchanged => exact h
  | cleared => exact ⟨h.current, h.writes⟩
  | @refused ch a hp hl ha hkeys =>
    refine ⟨fun e' ch' row hch hrow _ => ?_, h.writes⟩
    -- the challenge accepted last is this one, and it did not pass
    obtain ⟨rfl, rfl⟩ : e = e' ∧ ch = ch' := by simpa [History.logonChallenge] using hch
    rw [hp] at hrow
    cases hrow
  | @passed ch row a hp hl ha hv hsalt ht hlevel =>
    refine ⟨fun e' ch' row' hch hrow hcur => ?_, h.writes⟩
    obtain ⟨rfl, rfl⟩ : e = e' ∧ ch = ch' := by simpa [History.logonChallenge] using hch
    obtain rfl : row = row' := Option.some.inj (hp.symm.trans hrow)
    have hboth : (vsFields C e row).1.isSome = true ∧ (vsFields C e row).2.isSome = true := by
      simpa [History.logonChallenge, hp] using hcur
    obtain ⟨v, hv'⟩ := Option.isSome_iff_exists.mp hboth.1
    obtain ⟨s, hs'⟩ := Option.isSome_iff_exists.mp hboth.2
    refine ⟨hl.symm, ?_, ht.symm⟩
    rw [hv, hsalt, hv', hs', Option.getD_some, Option.getD_some, ← hv', ← hs']
  | mismatch => exact ⟨h.current, h.writes⟩
  | tokenRefused hk hm => exact ⟨h.current, h.appendWrite (h.write hok hk hm)⟩
  | proved hk hm => exact ⟨h.current, h.appendWrite (h.write hok hk hm)⟩
  | @reconnecting ch a hno hl ha hkeys =>
    refine ⟨fun e' ch' row hch hrow hcur => ?_, h.writes⟩
    obtain ⟨hold, hsame⟩ : t.hist.vsCurrent = true ∧ ch.login = t.sock.login := by
      simpa [History.reconnectChallenge] using hcur
    obtain ⟨hlogin, hvs, hkey⟩ := h.current e' ch' row hch hrow hold
    exact ⟨by rw [hlogin, hl, hsame], by rw [hkeys.v, hkeys.s, hvs], hkey.trans hkeys.tokenKey.symm⟩
  | @reconnectChallenged ch r a hr hl ha hv hsalt ht hk hlevel =>
    refine ⟨fun e' ch' row hch hrow hcur => ?_, h.writes⟩
    obtain ⟨hold, hsame⟩ : t.hist.vsCurrent = true ∧ ch.login = t.sock.login := by
      simpa [History.reconnectChallenge] using hcur
    obtain ⟨hlogin, hvs, hkey⟩ := h.current e' ch' row hch hrow hold
    exact ⟨by rw [hlogin, hl, hsame], by rw [hv, hsalt, hvs], hkey.trans ht.symm⟩
  | reconnected => exact ⟨h.current, h.writes⟩
  | answered => exact ⟨h.current, h.writes⟩

end

theorem initial_keyInv (C : Crypto) : KeyInv C initial where
  current := by simp [initial]
  writes := by simp [initial]

/-- In a run whose matching logon proofs each follow a passed challenge for the account and
bring its token, every session key written is that of a proved account. -/
theorem session_keys_of_proved_accounts (C : Crypto) {t : State}
    (h : Reaches (step C) (FollowsChallenge C) (· = initial) t) :
    ∀ w ∈ t.hist.writes, w.Proved C := by
  have hinv : KeyInv C t :=
    h.invariant (by rintro _ rfl; exact initial_keyInv C) fun _ _ _ h hok hs => h.step hok hs
  exact hinv.writes

/-! ### Clients that know what is expected -/

/-- A proof with `A = 1` and the `M1` that is expected for it, without a token. -/
def rightProof (C : Crypto) (e : Env) (a : AuthSocket) : AuthLogonProof_C where
  a := Vector.ofFn fun i => if i.val = 0 then 1 else 0
  m1 := ⟨(expectedM1 C e a 1).toArray, by simp [expectedM1]⟩
  securityFlags := 0
  token := []

theorem matchesM1_rightProof (C : Crypto) (e : Env) (a : AuthSocket) :
    matchesM1 C e a (rightProof C e a) = true := by
  have hone : setBinary (rightProof C e a).a.toList = 1 := by
    change setBinary (Vector.ofFn fun i : Fin 32 => if i.val = 0 then (1 : UInt8) else 0).toList = 1
    decide
  unfold matchesM1
  rw [hone]
  simp [rightProof]

theorem reachesKey_rightProof (C : Crypto) (e : Env) {a : AuthSocket}
    (h : a.expversion ≠ NO_VALID_EXP_FLAG) : reachesKey a (rightProof C e a) = true := by
  have hone : setBinary (rightProof C e a).a.toList % bigN ≠ 0 := by
    change setBinary (Vector.ofFn fun i : Fin 32 => if i.val = 0 then (1 : UInt8) else 0).toList %
      bigN ≠ 0
    decide
  unfold reachesKey
  exact decide_eq_true ⟨h, hone⟩

theorem step_logonProof_writes {C : Crypto} {e : Env} {t : State} {lp : AuthLogonProof_C}
    (hk : reachesKey t.sock lp = true) (hm : matchesM1 C e t.sock lp = true) :
    ∃ t', step C t (e, .logonProof (some lp)) = some t' ∧
      t'.hist.writes = t.hist.writes ++ [⟨t.sock.login, e, t.sock, lp, t.hist.challenge⟩] ∧
      (t'.sock.authed = true ↔ tokenAccepted C e t.sock lp = true) ∧
      t'.sock.login = t.sock.login ∧ (t'.sock.authed = true → t'.hist.proved = t.hist.vsOwner) := by
  have hreach : reachesKey { t.sock with authed := false } lp = true := hk
  have hmatch : matchesM1 C e { t.sock with authed := false } lp = true := hm
  have htoken : tokenAccepted C e { t.sock with authed := false } lp =
    tokenAccepted C e t.sock lp := rfl
  refine ⟨_, rfl, ?_⟩
  simp only [handle, handleLogonProof, History.record, History.logonProof, hreach, hk, hmatch,
    htoken, Bool.true_eq_false, if_false, if_true]
  cases tokenAccepted C e t.sock lp with
  | false => exact ⟨rfl, by simp, rfl, by simp⟩
  | true => exact ⟨rfl, by simp, rfl, fun _ => rfl⟩

def plainRow (id : ℕ) : AccountRow where
  shaPassHash := List.replicate 40 48
  id := id
  locked := 0
  lastIp := []
  gmlevel := 0
  v := []
  s := []
  tokenKey := []
  sessionkey := []

def plainEnv : Env where
  db :=
    { ipBanned := fun _ => false
      account := fun name =>
        if name = [65] then some (plainRow 1) else if name = [66] then some (plainRow 2) else none
      banned := fun _ => none
      failedLogins := fun _ => none
      numChars := fun _ _ => 0 }
  remoteAddress := []
  time := 0
  flooded := false
  randS := .least 254
  randB := .least 150
  unk3 := .least 126
  randReconnect := .least 126
  behind := Vector.replicate 20 0
  maxWrongPassCount := 0
  wrongPassBanTime := 600
  wrongPassBanType := false
  realms := []

def plainChallenge (name : Bytes) : AuthLogonChallenge_C where
  build := 12340
  os := #v[110, 105, 87, 0]
  country := #v[83, 85, 110, 101]
  timezoneBias := #v[0, 0, 0, 0]
  ip := #v[127, 0, 0, 1]
  iLen := 1
  i := name

theorem session_keys_of_proved_accounts_login : ¬∃ C : Crypto, ∀ t,
    Reaches (step C) (FollowsChallenge C) (· = initial) t →
      ¬(t.hist.writes ≠ [] ∧ ∀ w ∈ t.hist.writes, w.Proved C) := by
  rintro ⟨C, hC⟩
  let e := plainEnv
  let x : Env × Command := (e, .logonChallenge (.full (plainChallenge [65])))
  let t1 : State := (step C initial x).get rfl
  have h1 : Reaches (step C) (FollowsChallenge C) (· = initial) t1 :=
    .next (a := x) (.start rfl) trivial (Option.some_get rfl).symm
  have hk : reachesKey t1.sock (rightProof C e t1.sock) = true :=
    reachesKey_rightProof C e (by change (2 : ℕ) ≠ 0; decide)
  have hm : matchesM1 C e t1.sock (rightProof C e t1.sock) = true := matchesM1_rightProof C e _
  obtain ⟨t2, hs, hw, -⟩ := step_logonProof_writes hk hm
  have hok : FollowsChallenge C t1 (e, .logonProof (some (rightProof C e t1.sock))) := fun _ _ =>
    ⟨⟨(e, plainChallenge [65]), rfl, rfl⟩, rfl, fun hne => absurd rfl hne⟩
  have h2 := h1.next hok hs
  refine hC t2 h2 ⟨?_, session_keys_of_proved_accounts C h2⟩
  rw [hw]
  simp

/-- A client that knows the password of `A` lets a challenge for `A` pass, names `B` in a
reconnect challenge, and answers for the name `B` with the numbers of `A`: the session key is
written for `B`. -/
theorem session_key_written_for_other_account : ¬∃ C : Crypto, ∀ t,
    Reaches (step C) anyStep (· = initial) t → ∀ w ∈ t.hist.writes, w.Proved C := by
  rintro ⟨C, hC⟩
  let e := plainEnv
  let x : Env × Command := (e, .logonChallenge (.full (plainChallenge [65])))
  let y : Env × Command := (e, .reconnectChallenge (.full (plainChallenge [66])))
  let t1 : State := (step C initial x).get rfl
  let t2 : State := (step C t1 y).get rfl
  have h1 : Reaches (step C) anyStep (· = initial) t1 :=
    .next (a := x) (.start rfl) trivial (Option.some_get rfl).symm
  have h2 : Reaches (step C) anyStep (· = initial) t2 :=
    h1.next (a := y) trivial (Option.some_get rfl).symm
  have hk : reachesKey t2.sock (rightProof C e t2.sock) = true :=
    reachesKey_rightProof C e (by change (2 : ℕ) ≠ 0; decide)
  have hm : matchesM1 C e t2.sock (rightProof C e t2.sock) = true := matchesM1_rightProof C e _
  obtain ⟨t3, hs, hw, -⟩ := step_logonProof_writes hk hm
  have hmem : ⟨t2.sock.login, e, t2.sock, rightProof C e t2.sock, t2.hist.challenge⟩ ∈
      t3.hist.writes := by
    rw [hw]
    exact List.mem_append_right _ (List.mem_singleton_self _)
  obtain ⟨e', ch, row, hch, hlogin, -⟩ := hC t3 (h2.next trivial hs) _ hmem
  change some (e, plainChallenge [65]) = some (e', ch) at hch
  change ch.login = [66] at hlogin
  obtain rfl : plainChallenge [65] = ch := congrArg Prod.snd (Option.some.inj hch)
  exact absurd hlogin (by decide)

end HysteriaCore.Auth

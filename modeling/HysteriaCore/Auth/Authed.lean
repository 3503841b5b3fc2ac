import HysteriaCore.Auth.SessionKey

/-!
# The authenticated flag and the account it belongs to

Both challenges replace `_login`, only the logon challenge clears `_authed`, and what a proof
is checked with may be left over from another account. The flag and the name stay in step as
long as proofs follow the challenge that set their numbers, and as long as an authenticated
connection reconnects under its own name.
-/

namespace HysteriaCore.Auth
open Lib

def LevelFor (t : State) : Prop :=
  ∃ gmlevel, t.hist.level = some (t.sock.login, gmlevel) ∧
    t.sock.accountSecurityLevel = securityLevel gmlevel

/-- The character counts and the locks of a realm list are those of the account of the last
successful proof. -/
def Answer.Own (ans : Answer) : Prop :=
  ∃ login row gmlevel, ans.proved = some login ∧ ans.level = some (login, gmlevel) ∧
    ans.env.db.account login = some row ∧
    ans.entries = realmEntries ans.env ans.sock.expversion ans.sock.build (securityLevel gmlevel)
      row.id

/-- An authenticated connection names its own account when it reconnects. A logon proof that
succeeds comes after `v` and `s` were set for the account now named, a reconnect proof that
succeeds after `K` was. -/
def KeepsLogin (C : Crypto) (t : State) : Env × Command → Prop
  | (_, .reconnectChallenge (.full ch)) => t.sock.authed = true → ch.login = t.sock.login
  | (e, .logonProof (some lp)) =>
    reachesKey t.sock lp = true → matchesM1 C e t.sock lp = true →
      tokenAccepted C e t.sock lp = true → t.hist.vsCurrent = true
  | (_, .reconnectProof (some lp)) => reconnectMatches C t.sock lp = true → t.hist.keyCurrent = true
  | _ => True

/-- What is current belongs to the account in `_login`, and so does the flag. -/
structure LoginInv (t : State) : Prop where
  vs : t.hist.vsCurrent = true → t.hist.vsOwner = some t.sock.login ∧ LevelFor t
  key : t.hist.keyCurrent = true → t.hist.keyOwner = some t.sock.login ∧ LevelFor t
  authed : t.sock.authed = true → t.hist.proved = some t.sock.login ∧ LevelFor t
  answers : ∀ ans ∈ t.hist.answers, ans.Own

section
variable {C : Crypto} {e : Env} {t t' : State}

theorem LevelFor.same (h : LevelFor t) (hl : t'.sock.login = t.sock.login)
    (hh : t'.hist.level = t.hist.level)
    (hs : t'.sock.accountSecurityLevel = t.sock.accountSecurityLevel) : LevelFor t' := by
  obtain ⟨gmlevel, h1, h2⟩ := h
  exact ⟨gmlevel, by rw [hh, h1, hl], by rw [hs, h2]⟩

theorem LoginInv.cleared (h : LoginInv t) : LoginInv ⟨{ t.sock with authed := false }, t.hist⟩ where
  vs := h.vs
  key := h.key
  authed := fun ha => Bool.noConfusion ha
  answers := h.answers

variable {ch : AuthLogonChallenge_C} {a : AuthSocket}

theorem LoginInv.refused (h : LoginInv t)
    (hp : passedRow e ch = none) (hl : a.login = ch.login) (ha : a.authed = false)
    (hs : SameKeys t.sock a) : LoginInv ⟨a, t.hist.logonChallenge C e ch t.sock⟩ := by
  have hlevel : ch.login = t.sock.login → LevelFor t →
      LevelFor ⟨a, t.hist.logonChallenge C e ch t.sock⟩ := fun hsame h =>
    h.same (hl.trans hsame) (by simp [History.logonChallenge, hp]) hs.level
  refine ⟨fun hv => ?_, fun hk => ?_, fun h => ?_, h.answers⟩
  · obtain ⟨hold, hsame⟩ : t.hist.vsCurrent = true ∧ ch.login = t.sock.login := by
      simpa [History.logonChallenge, hp] using hv
    obtain ⟨howner, hlev⟩ := h.vs hold
    refine ⟨?_, hlevel hsame hlev⟩
    simp only [History.logonChallenge, hp, Option.elim, hl, hsame, howner]
  · obtain ⟨hold, hsame⟩ : t.hist.keyCurrent = true ∧ ch.login = t.sock.login := by
      simpa [History.logonChallenge] using hk
    obtain ⟨howner, hlev⟩ := h.key hold
    refine ⟨?_, hlevel hsame hlev⟩
    simp only [History.logonChallenge, hl, hsame, howner]
  · simp [ha] at h

variable {row : AccountRow}

theorem LoginInv.passed (h : LoginInv t)
    (hp : passedRow e ch = some row) (hl : a.login = ch.login)
    (ha : a.authed = false) (hlevel : a.accountSecurityLevel = securityLevel row.gmlevel) :
    LoginInv ⟨a, t.hist.logonChallenge C e ch t.sock⟩ := by
  have hlev : LevelFor ⟨a, t.hist.logonChallenge C e ch t.sock⟩ :=
    ⟨row.gmlevel, by simp [History.logonChallenge, hp, hl], hlevel⟩
  refine ⟨fun hv => ⟨?_, hlev⟩, fun hk => ⟨?_, hlev⟩, fun h => ?_, h.answers⟩
  · have hboth : (vsFields C e row).1.isSome = true ∧ (vsFields C e row).2.isSome = true := by
      simpa [History.logonChallenge, hp] using hv
    simp [History.logonChallenge, hp, hboth.1, hboth.2, hl]
  · obtain ⟨hold, hsame⟩ : t.hist.keyCurrent = true ∧ ch.login = t.sock.login := by
      simpa [History.logonChallenge] using hk
    simp only [History.logonChallenge, hl, hsame, (h.key hold).1]
  · simp [ha] at h

theorem LoginInv.keyed (h : LoginInv t) {k : ℕ} (writes : List Write) :
    LoginInv ⟨{ t.sock with authed := false, k := k },
      { t.hist with
        keyCurrent := t.hist.vsCurrent
        keyOwner := t.hist.vsOwner
        writes := writes }⟩ where
  vs := h.vs
  key := h.vs
  authed := fun ha => Bool.noConfusion ha
  answers := h.answers

theorem LoginInv.proved (h : LoginInv t) {k : ℕ} (writes : List Write)
    (hcur : t.hist.vsCurrent = true) :
    LoginInv ⟨{ t.sock with authed := true, k := k },
      { t.hist with
        keyCurrent := t.hist.vsCurrent
        keyOwner := t.hist.vsOwner
        writes := writes
        proved := t.hist.vsOwner }⟩ where
  vs := h.vs
  key := h.vs
  authed := fun _ => h.vs hcur
  answers := h.answers

theorem LoginInv.reconnecting (h : LoginInv t)
    (hno : History.reconnectRow e ch = none) (hl : a.login = ch.login)
    (ha : a.authed = t.sock.authed) (hs : SameKeys t.sock a)
    (hok : t.sock.authed = true → ch.login = t.sock.login) :
    LoginInv ⟨a, t.hist.reconnectChallenge C e ch t.sock⟩ := by
  have hlevel : ch.login = t.sock.login → LevelFor t →
      LevelFor ⟨a, t.hist.reconnectChallenge C e ch t.sock⟩ := fun hsame h =>
    h.same (hl.trans hsame) (by simp [History.reconnectChallenge, hno]) hs.level
  refine ⟨fun hv => ?_, fun hk => ?_, fun hauth => ?_, h.answers⟩
  · obtain ⟨hold, hsame⟩ : t.hist.vsCurrent = true ∧ ch.login = t.sock.login := by
      simpa [History.reconnectChallenge] using hv
    obtain ⟨howner, hlev⟩ := h.vs hold
    exact ⟨by simp only [History.reconnectChallenge, hl, hsame, howner], hlevel hsame hlev⟩
  · obtain ⟨hold, hsame⟩ : t.hist.keyCurrent = true ∧ ch.login = t.sock.login := by
      simpa [History.reconnectChallenge, hno] using hk
    obtain ⟨howner, hlev⟩ := h.key hold
    exact ⟨by simp [History.reconnectChallenge, hno, hl, hsame, howner], hlevel hsame hlev⟩
  · have hold : t.sock.authed = true := ha.symm.trans hauth
    obtain ⟨hproved, hlev⟩ := h.authed hold
    exact ⟨by simp only [History.reconnectChallenge, hl, hok hold, hproved], hlevel (hok hold) hlev⟩

theorem LoginInv.reconnectChallenged (h : LoginInv t)
    (hrow : History.reconnectRow e ch = some row)
    (hl : a.login = ch.login) (ha : a.authed = t.sock.authed)
    (hlevel : a.accountSecurityLevel = securityLevel row.gmlevel)
    (hok : t.sock.authed = true → ch.login = t.sock.login) :
    LoginInv ⟨a, t.hist.reconnectChallenge C e ch t.sock⟩ := by
  have hlev : LevelFor ⟨a, t.hist.reconnectChallenge C e ch t.sock⟩ :=
    ⟨row.gmlevel, by simp [History.reconnectChallenge, hrow, hl], hlevel⟩
  refine ⟨fun hv => ⟨?_, hlev⟩, fun hk => ⟨?_, hlev⟩, fun hauth => ⟨?_, hlev⟩, h.answers⟩
  · obtain ⟨hold, hsame⟩ : t.hist.vsCurrent = true ∧ ch.login = t.sock.login := by
      simpa [History.reconnectChallenge] using hv
    simp only [History.reconnectChallenge, hl, hsame, (h.vs hold).1]
  · cases hkey : C.hex2bn (cstr row.sessionkey) with
    | some k => simp [History.reconnectChallenge, hrow, hkey, hl]
    | none =>
      -- no session key is stored, and the old `K` stays
      obtain ⟨hold, hsame⟩ : t.hist.keyCurrent = true ∧ ch.login = t.sock.login := by
        simpa [History.reconnectChallenge, hrow, hkey] using hk
      simp [History.reconnectChallenge, hrow, hkey, hl, hsame, (h.key hold).1]
  · have hold : t.sock.authed = true := ha.symm.trans hauth
    simp only [History.reconnectChallenge, hl, hok hold, (h.authed hold).1]

theorem LoginInv.answered (h : LoginInv t) (ha : t.sock.authed = true)
    (hrow : e.db.account t.sock.login = some row) :
    Answer.Own ⟨e, t.sock, realmEntries e t.sock.expversion t.sock.build
      t.sock.accountSecurityLevel row.id, t.hist.proved, t.hist.level⟩ := by
  obtain ⟨hproved, gmlevel, hlevel, hsec⟩ := h.authed ha
  exact ⟨t.sock.login, row, gmlevel, hproved, hlevel, hrow, by rw [hsec]⟩

theorem LoginInv.step {x : Env × Command} (h : LoginInv t) (hok : KeepsLogin C t x)
    (hs : step C t x = some t') : LoginInv t' := by
  obtain ⟨e, c⟩ := x
  cases step_served hs with
  | unchanged => exact h
  | cleared => exact h.cleared
  | refused hp hl ha hkeys => exact h.refused hp hl ha hkeys
  | passed hp hl ha _ _ _ hlevel => exact h.passed hp hl ha hlevel
  | mismatch => exact h.keyed _
  | tokenRefused => exact h.keyed _
  | proved hk hm ht => exact h.proved _ (hok hk hm ht)
  | reconnecting hno hl ha hkeys => exact h.reconnecting hno hl ha hkeys hok
  | reconnectChallenged hrow hl ha _ _ _ _ hlevel =>
    exact h.reconnectChallenged hrow hl ha hlevel hok
  | reconnected hm => exact ⟨h.vs, h.key, fun _ => h.key (hok hm), h.answers⟩
  | answered ha hrow =>
    refine ⟨h.vs, h.key, h.authed, fun ans hans => ?_⟩
    rcases List.mem_append.mp hans with hans | hans
    · exact h.answers ans hans
    · rw [List.mem_singleton.mp hans]
      exact h.answered ha hrow

end

theorem initial_loginInv : LoginInv initial := by
  constructor <;> simp [initial, AuthSocket.new]

/-- In a run that keeps to `KeepsLogin` the authenticated flag is that of the account in
`_login`, and every realm list is that account's. -/
theorem authed_belongs_to_login (C : Crypto) {t : State}
    (h : Reaches (step C) (KeepsLogin C) (· = initial) t) :
    (t.sock.authed = true → t.hist.proved = some t.sock.login) ∧
      ∀ ans ∈ t.hist.answers, ans.Own := by
  have hinv : LoginInv t :=
    h.invariant (by rintro _ rfl; exact initial_loginInv) fun _ _ _ h hok hs => h.step hok hs
  exact ⟨fun ha => (hinv.authed ha).1, hinv.answers⟩

theorem login_authed (C : Crypto) : ∃ t, Reaches (step C) (KeepsLogin C) (· = initial) t ∧
    t.sock.authed = true ∧ t.sock.login = [65] ∧ t.hist.proved = some [65] := by
  let e := plainEnv
  let x : Env × Command := (e, .logonChallenge (.full (plainChallenge [65])))
  let t1 : State := (step C initial x).get rfl
  have h1 : Reaches (step C) (KeepsLogin C) (· = initial) t1 :=
    .next (a := x) (.start rfl) trivial (Option.some_get rfl).symm
  have hk : reachesKey t1.sock (rightProof C e t1.sock) = true :=
    reachesKey_rightProof C e (by change (2 : ℕ) ≠ 0; decide)
  have hm : matchesM1 C e t1.sock (rightProof C e t1.sock) = true := matchesM1_rightProof C e _
  obtain ⟨t2, hs, -, hauth, hlogin, hproved⟩ := step_logonProof_writes hk hm
  have htoken : tokenAccepted C e t1.sock (rightProof C e t1.sock) = true := by
    refine decide_eq_true (.inl ?_)
    change ¬((0 : UInt8) &&& 4 ≠ 0 ∨ ([] : Bytes) ≠ [])
    decide
  have hauthed : t2.sock.authed = true := hauth.mpr htoken
  have hok : KeepsLogin C t1 (e, .logonProof (some (rightProof C e t1.sock))) := fun _ _ _ => rfl
  exact ⟨t2, h1.next hok hs, hauthed, hlogin, hproved hauthed⟩

theorem authed_belongs_to_login_oneLogin : ¬∃ C : Crypto, ∀ t,
    Reaches (step C) (KeepsLogin C) (· = initial) t →
      ¬(t.sock.authed = true ∧ (t.sock.authed = true → t.hist.proved = some t.sock.login) ∧
        ∀ ans ∈ t.hist.answers, ans.Own) := by
  rintro ⟨C, hC⟩
  obtain ⟨t, h, hauthed, -⟩ := login_authed C
  exact hC t h ⟨hauthed, authed_belongs_to_login C h⟩

/-- A connection that logged in as `A` names `B` in a reconnect challenge and stays
authenticated. -/
theorem authed_kept_for_other_login : ¬∃ C : Crypto, ∀ t,
    Reaches (step C) anyStep (· = initial) t →
      (t.sock.authed = true → t.hist.proved = some t.sock.login) ∧
        ∀ ans ∈ t.hist.answers, ans.Own := by
  rintro ⟨C, hC⟩
  obtain ⟨t, h, hauthed, -, hproved⟩ := login_authed C
  let x : Env × Command := (plainEnv, .reconnectChallenge (.full (plainChallenge [66])))
  let t' : State := (step C t x).get rfl
  have h' : Reaches (step C) anyStep (· = initial) t' :=
    .next (a := x) (h.mono fun _ _ _ => trivial) trivial (Option.some_get rfl).symm
  have hlogin : t.hist.proved = some [66] := (hC t' h').1 hauthed
  rw [hproved] at hlogin
  exact absurd hlogin (by decide)

end HysteriaCore.Auth

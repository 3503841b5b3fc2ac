import HysteriaCore.Auth.Socket

/-!
# Runs of one connection

Next to the connection, `History` keeps what its fields do not tell: the logon challenge
accepted for processing last, whose verifier, session key and security level the fields
hold, whether that was set since `_login` last changed, and what was written and answered.
`Served` lists what one command can do to both.
-/

namespace HysteriaCore.Auth
open Lib

/-- A session key given to `LOGIN_UPD_LOGONPROOF`: the account it was stored for, the proof
and the connection it met, and the logon challenge accepted last. -/
structure Write where
  login : Bytes
  env : Env
  sock : AuthSocket
  lp : AuthLogonProof_C
  challenge : Option (Env × AuthLogonChallenge_C)

/-- A realm list that was sent, with the account of the last successful proof. -/
structure Answer where
  env : Env
  sock : AuthSocket
  entries : List RealmEntry
  proved : Option Bytes
  level : Option (Bytes × ℕ)

/-- `vsOwner` and `keyOwner` are the accounts that `v`, `s` and `K` belong to, `level` the
account and the `gmlevel` that `_accountSecurityLevel` was read from. `vsCurrent` says that
`v` and `s` have been set for the account that is now in `_login`, since that name came in;
`keyCurrent` says it of `K`. -/
structure History where
  challenge : Option (Env × AuthLogonChallenge_C)
  vsCurrent : Bool
  keyCurrent : Bool
  vsOwner : Option Bytes
  keyOwner : Option Bytes
  level : Option (Bytes × ℕ)
  proved : Option Bytes
  writes : List Write
  answers : List Answer

structure State where
  sock : AuthSocket
  hist : History

def initial : State := ⟨.new, ⟨none, false, false, none, none, none, none, [], []⟩⟩

def passedRow (e : Env) (ch : AuthLogonChallenge_C) : Option AccountRow :=
  if 4 < ch.osText.length then none
  else
    match checkAccount e.db e.remoteAddress ch.login with
    | .ok row => some row
    | .error _ => none

theorem passedRow_eq_some {e : Env} {ch : AuthLogonChallenge_C} {row : AccountRow}
    (h : passedRow e ch = some row) :
    e.db.ipBanned e.remoteAddress = false ∧ e.db.account ch.login = some row ∧
      (row.locked = 1 → cstr row.lastIp = cstr e.remoteAddress) ∧ e.db.banned row.id = none := by
  unfold passedRow checkAccount at h
  split_ifs at h with hos hip
  · cases hacc : e.db.account ch.login with
    | none => simp [hacc] at h
    | some r =>
      simp only [hacc] at h
      split_ifs at h with hlock
      cases hban : e.db.banned r.id with
      | some b => simp [hban] at h
      | none =>
        obtain rfl : r = row := by simpa [hban] using h
        refine ⟨by simpa using hip, rfl, fun hl => ?_, hban⟩
        by_contra hne
        exact hlock ⟨hl, hne⟩

namespace History

def logonChallenge (C : Crypto) (e : Env) (ch : AuthLogonChallenge_C) (a : AuthSocket)
    (h : History) : History :=
  let same := decide (ch.login = a.login)
  let bothSet := fun row => (vsFields C e row).1.isSome && (vsFields C e row).2.isSome
  { h with
    challenge := some (e, ch)
    keyCurrent := h.keyCurrent && same
    vsCurrent := (passedRow e ch).elim (h.vsCurrent && same) bothSet
    vsOwner := (passedRow e ch).elim h.vsOwner fun row =>
      if bothSet row then some ch.login else none
    level := (passedRow e ch).elim h.level fun row => some (ch.login, row.gmlevel) }

def writtenLogin : List Effect → Option Bytes :=
  List.findSome? fun
    | .updLogonProof _ _ _ _ login => some login
    | _ => none

def logonProof (e : Env) (lp : AuthLogonProof_C) (a : AuthSocket) (r : Result) (h : History) :
    History :=
  let h := if reachesKey a lp then { h with keyCurrent := h.vsCurrent, keyOwner := h.vsOwner } else h
  let h :=
    match writtenLogin r.effects with
    | none => h
    | some login => { h with writes := h.writes ++ [⟨login, e, a, lp, h.challenge⟩] }
  if r.sock.authed then { h with proved := h.vsOwner } else h

def reconnectRow (e : Env) (ch : AuthLogonChallenge_C) : Option AccountRow :=
  if 4 < ch.osText.length then none else e.db.account ch.login

def reconnectChallenge (C : Crypto) (e : Env) (ch : AuthLogonChallenge_C) (a : AuthSocket)
    (h : History) : History :=
  let same := decide (ch.login = a.login)
  let key := (reconnectRow e ch).bind fun row => C.hex2bn (cstr row.sessionkey)
  { h with
    vsCurrent := h.vsCurrent && same
    keyCurrent := key.isSome || h.keyCurrent && same
    keyOwner := if key.isSome then some ch.login else h.keyOwner
    level := (reconnectRow e ch).elim h.level fun row => some (ch.login, row.gmlevel) }

def sentEntries : List Effect → Option (List RealmEntry) :=
  List.findSome? fun
    | .sendRealmList entries => some entries
    | _ => none

/-- The history after a command that found the connection `a` and ended with `r`. -/
def record (C : Crypto) (e : Env) (c : Command) (a : AuthSocket) (r : Result) (h : History) :
    History :=
  match c with
  | .logonChallenge (.full ch) => if e.flooded then h else h.logonChallenge C e ch a
  | .logonProof (some lp) => h.logonProof e lp a r
  | .reconnectChallenge (.full ch) => h.reconnectChallenge C e ch a
  | .reconnectProof (some _) => if r.sock.authed then { h with proved := h.keyOwner } else h
  | .realmList _ =>
    match sentEntries r.effects with
    | none => h
    | some entries => { h with answers := h.answers ++ [⟨e, a, entries, h.proved, h.level⟩] }
  | _ => h

end History

def step (C : Crypto) (t : State) (x : Env × Command) : Option State :=
  let r := handle C x.1 x.2 t.sock
  some ⟨r.sock, t.hist.record C x.1 x.2 t.sock r⟩

/-! ### What one command can do -/

section Served
variable (C : Crypto) (e : Env) (t : State)

structure SameKeys (a a' : AuthSocket) : Prop where
  v : a'.v = a.v
  s : a'.s = a.s
  tokenKey : a'.tokenKey = a.tokenKey
  k : a'.k = a.k
  level : a'.accountSecurityLevel = a.accountSecurityLevel

inductive Served : Command → State → Prop
  | unchanged {c : Command} : Served c t
  | cleared {c : Command} : Served c ⟨{ t.sock with authed := false }, t.hist⟩
  | refused {ch : AuthLogonChallenge_C} {a : AuthSocket} (hp : passedRow e ch = none)
      (hl : a.login = ch.login) (ha : a.authed = false) (hs : SameKeys t.sock a) :
      Served (.logonChallenge (.full ch)) ⟨a, t.hist.logonChallenge C e ch t.sock⟩
  | passed {ch : AuthLogonChallenge_C} {row : AccountRow} {a : AuthSocket}
      (hp : passedRow e ch = some row) (hl : a.login = ch.login) (ha : a.authed = false)
      (hv : a.v = (vsFields C e row).1.getD t.sock.v)
      (hs : a.s = (vsFields C e row).2.getD t.sock.s) (ht : a.tokenKey = row.tokenKey)
      (hlevel : a.accountSecurityLevel = securityLevel row.gmlevel) :
      Served (.logonChallenge (.full ch)) ⟨a, t.hist.logonChallenge C e ch t.sock⟩
  | mismatch {lp : AuthLogonProof_C} {k : ℕ} (hk : reachesKey t.sock lp = true)
      (hm : matchesM1 C e t.sock lp = false) :
      Served (.logonProof (some lp)) ⟨{ t.sock with authed := false, k := k },
        { t.hist with keyCurrent := t.hist.vsCurrent, keyOwner := t.hist.vsOwner }⟩
  | tokenRefused {lp : AuthLogonProof_C} {k : ℕ} (hk : reachesKey t.sock lp = true)
      (hm : matchesM1 C e t.sock lp = true) (ht : tokenAccepted C e t.sock lp = false) :
      Served (.logonProof (some lp)) ⟨{ t.sock with authed := false, k := k },
        { t.hist with
          keyCurrent := t.hist.vsCurrent
          keyOwner := t.hist.vsOwner
          writes := t.hist.writes ++ [⟨t.sock.login, e, t.sock, lp, t.hist.challenge⟩] }⟩
  | proved {lp : AuthLogonProof_C} {k : ℕ} (hk : reachesKey t.sock lp = true)
      (hm : matchesM1 C e t.sock lp = true) (ht : tokenAccepted C e t.sock lp = true) :
      Served (.logonProof (some lp)) ⟨{ t.sock with authed := true, k := k },
        { t.hist with
          keyCurrent := t.hist.vsCurrent
          keyOwner := t.hist.vsOwner
          writes := t.hist.writes ++ [⟨t.sock.login, e, t.sock, lp, t.hist.challenge⟩]
          proved := t.hist.vsOwner }⟩
  | reconnecting {ch : AuthLogonChallenge_C} {a : AuthSocket}
      (hno : History.reconnectRow e ch = none) (hl : a.login = ch.login)
      (ha : a.authed = t.sock.authed) (hs : SameKeys t.sock a) :
      Served (.reconnectChallenge (.full ch)) ⟨a, t.hist.reconnectChallenge C e ch t.sock⟩
  | reconnectChallenged {ch : AuthLogonChallenge_C} {row : AccountRow} {a : AuthSocket}
      (hrow : History.reconnectRow e ch = some row) (hl : a.login = ch.login)
      (ha : a.authed = t.sock.authed) (hv : a.v = t.sock.v) (hs : a.s = t.sock.s)
      (ht : a.tokenKey = t.sock.tokenKey)
      (hk : a.k = (C.hex2bn (cstr row.sessionkey)).getD t.sock.k)
      (hlevel : a.accountSecurityLevel = securityLevel row.gmlevel) :
      Served (.reconnectChallenge (.full ch)) ⟨a, t.hist.reconnectChallenge C e ch t.sock⟩
  | reconnected {lp : AuthReconnectProof_C} (hm : reconnectMatches C t.sock lp = true) :
      Served (.reconnectProof (some lp)) ⟨{ t.sock with authed := true },
        { t.hist with proved := t.hist.keyOwner }⟩
  | answered {received : Bool} {row : AccountRow} (ha : t.sock.authed = true)
      (hrow : e.db.account t.sock.login = some row) :
      Served (.realmList received) ⟨t.sock,
        { t.hist with
          answers := t.hist.answers ++
            [⟨e, t.sock, realmEntries e t.sock.expversion t.sock.build
              t.sock.accountSecurityLevel row.id, t.hist.proved, t.hist.level⟩] }⟩

end Served

section
variable {C : Crypto} {e : Env} {t t' : State}

theorem served_logonChallenge (ch : AuthLogonChallenge_C) (hf : e.flooded = false) :
    Served C e t (.logonChallenge (.full ch))
      ⟨(handleLogonChallenge C e (.full ch) t.sock).sock, t.hist.logonChallenge C e ch t.sock⟩ := by
  unfold handleLogonChallenge
  simp only [hf, Bool.false_eq_true, if_false]
  split_ifs with hos
  · exact .refused (by simp [passedRow, hos]) rfl rfl ⟨rfl, rfl, rfl, rfl, rfl⟩
  · cases hc : checkAccount e.db e.remoteAddress ch.login with
    | error code => exact .refused (by simp [passedRow, hos, hc]) rfl rfl ⟨rfl, rfl, rfl, rfl, rfl⟩
    | ok row => exact .passed (by simp [passedRow, hos, hc]) rfl rfl rfl rfl rfl rfl

theorem writtenLogin_failedLogin (pkt login : Bytes) :
    History.writtenLogin (.send pkt :: failedLogin e login) = none := by
  unfold failedLogin
  by_cases hmax : 0 < e.maxWrongPassCount
  · rw [if_pos hmax]
    cases e.db.failedLogins login with
    | none => rfl
    | some row =>
      simp only
      split_ifs <;> rfl
  · rw [if_neg hmax]
    rfl

theorem served_logonProof (lp : AuthLogonProof_C) :
    Served C e t (.logonProof (some lp))
      ⟨(handleLogonProof C e (some lp) t.sock).sock,
        t.hist.logonProof e lp t.sock (handleLogonProof C e (some lp) t.sock)⟩ := by
  have hreach : reachesKey { t.sock with authed := false } lp = reachesKey t.sock lp := rfl
  have hmatch : matchesM1 C e { t.sock with authed := false } lp = matchesM1 C e t.sock lp := rfl
  have htoken : tokenAccepted C e { t.sock with authed := false } lp =
    tokenAccepted C e t.sock lp := rfl
  unfold handleLogonProof History.logonProof
  simp only [hreach, hmatch, htoken]
  cases hk : reachesKey t.sock lp with
  | false =>
    simp only [if_true, Bool.false_eq_true, if_false]
    exact .cleared
  | true =>
    cases hm : matchesM1 C e t.sock lp with
    | false =>
      simp only [Bool.true_eq_false, if_false, Bool.false_eq_true, if_true,
        writtenLogin_failedLogin]
      exact .mismatch hk hm
    | true =>
      cases ht : tokenAccepted C e t.sock lp with
      | false => exact .tokenRefused hk hm ht
      | true => exact .proved hk hm ht

theorem served_reconnectChallenge (ch : AuthLogonChallenge_C) :
    Served C e t (.reconnectChallenge (.full ch))
      ⟨(handleReconnectChallenge C e (.full ch) t.sock).sock,
        t.hist.reconnectChallenge C e ch t.sock⟩ := by
  unfold handleReconnectChallenge
  cases hrow : e.db.account ch.login with
  | none =>
    simp only [hrow]
    exact .reconnecting (by simp [History.reconnectRow, hrow]) rfl rfl ⟨rfl, rfl, rfl, rfl, rfl⟩
  | some row =>
    simp only [hrow]
    split_ifs with hos
    · exact .reconnecting (by simp [History.reconnectRow, hos]) rfl rfl ⟨rfl, rfl, rfl, rfl, rfl⟩
    · have hr : History.reconnectRow e ch = some row := by simp [History.reconnectRow, hos, hrow]
      exact .reconnectChallenged hr rfl rfl rfl rfl rfl rfl rfl

theorem served_reconnectProof (lp : AuthReconnectProof_C) :
    Served C e t (.reconnectProof (some lp))
      ⟨(handleReconnectProof C (some lp) t.sock).sock,
        t.hist.record C e (.reconnectProof (some lp)) t.sock
          (handleReconnectProof C (some lp) t.sock)⟩ := by
  have hexp : expectedR2 C { t.sock with authed := false } lp.r1.toList =
    expectedR2 C t.sock lp.r1.toList := rfl
  unfold handleReconnectProof History.record
  by_cases hzero : t.sock.login = [] ∨ numBytes t.sock.reconnectProof = 0 ∨ numBytes t.sock.k = 0
  · simp only [if_pos hzero]
    exact .cleared
  · by_cases hr2 : expectedR2 C t.sock lp.r1.toList = lp.r2.toList
    · simp only [if_neg hzero, hexp, if_pos hr2]
      refine .reconnected ?_
      push Not at hzero
      simp only [reconnectMatches, hr2, decide_eq_true_eq, and_true]
      exact hzero
    · simp only [if_neg hzero, hexp, if_neg hr2]
      exact .cleared

theorem served_realmList (received : Bool) :
    Served C e t (.realmList received)
      ⟨(handle C e (.realmList received) t.sock).sock,
        t.hist.record C e (.realmList received) t.sock
          (handle C e (.realmList received) t.sock)⟩ := by
  unfold handle handleRealmList History.record
  simp only
  split_ifs with ha hr
  · exact .unchanged
  · cases hrow : e.db.account t.sock.login with
    | none => exact .unchanged
    | some row => exact .answered ha hrow
  · exact .unchanged

theorem step_served {c : Command} (hs : step C t (e, c) = some t') : Served C e t c t' := by
  obtain rfl := Option.some.inj hs
  cases c with
  | logonChallenge ch =>
    cases ch with
    | short => exact .cleared
    | incomplete =>
      simp only [handle, handleLogonChallenge, History.record]
      split_ifs <;> exact .cleared
    | full ch =>
      cases hf : e.flooded with
      | false =>
        simp only [handle, History.record, hf, Bool.false_eq_true, if_false]
        exact served_logonChallenge ch hf
      | true =>
        simp only [handle, handleLogonChallenge, History.record, hf, if_true]
        exact .cleared
  | logonProof lp =>
    cases lp with
    | none => exact .cleared
    | some lp => exact served_logonProof lp
  | reconnectChallenge ch =>
    cases ch with
    | short => exact .unchanged
    | incomplete => exact .unchanged
    | full ch => exact served_reconnectChallenge ch
  | reconnectProof lp =>
    cases lp with
    | none => exact .cleared
    | some lp => exact served_reconnectProof lp
  | realmList received => exact served_realmList received
  | unknown => exact .unchanged

end

end HysteriaCore.Auth

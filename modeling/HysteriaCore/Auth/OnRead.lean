import HysteriaCore.Auth.SessionKey

/-!
# The bytes a client sends (authserver/Server/AuthSocket.cpp, RealmSocket.cpp)

The input buffer, how each handler takes its packet from it, and the loop of `OnRead`. What a handler
reads elsewhere depends on how many commands have been carried out before. No patch is ever open
(`pPatch` stays null).
-/

namespace HysteriaCore.Auth
open Lib

def REALM_LIST : UInt8 := 0x10
def XFER_ACCEPT : UInt8 := 0x32
def XFER_RESUME : UInt8 := 0x33
def XFER_CANCEL : UInt8 := 0x34

def MAX_AUTH_LOGON_CHALLENGES_IN_A_ROW : ℕ := 35

/-! ### Packets -/

def field (buf : Bytes) (offset len : ℕ) : Vector UInt8 len := Vector.ofFn fun i => buf.getD (offset + i) 0

def sizeofLogonChallenge : ℕ := 35

def sizeofLogonProof : ℕ := 75

def sizeofReconnectProof : ℕ := 58

def remainingOf (buf : Bytes) : ℕ := (buf.getD 2 0).toNat + 256 * (buf.getD 3 0).toNat

def challengeOf (buf : Bytes) : AuthLogonChallenge_C where
  build := UInt16.ofNat ((buf.getD 11 0).toNat + 256 * (buf.getD 12 0).toNat)
  os := field buf 17 4
  country := field buf 21 4
  timezoneBias := field buf 25 4
  ip := field buf 29 4
  iLen := buf.getD 33 0
  i := buf.drop 34

def proofOf (buf token : Bytes) : AuthLogonProof_C where
  a := field buf 1 32
  m1 := field buf 33 20
  securityFlags := buf.getD 74 0
  token := token

def reconnectProofOf (buf : Bytes) : AuthReconnectProof_C := ⟨field buf 1 16, field buf 17 20⟩

/-! ### The connection -/

/-- A connection with its input buffer. `closed` says that `shutdown` was called; `carried` are the commands
whose packets were read. -/
structure Connection where
  sock : AuthSocket
  input : Bytes
  closed : Bool
  consumed : ℕ
  carried : List Command

namespace Connection
variable (c : Connection)

def new : Connection := ⟨.new, [], false, 0, []⟩

def skip (n : ℕ) : Connection := { c with input := c.input.drop n, consumed := c.consumed + n }

def feed (more : Bytes) : Connection := { c with input := c.input ++ more }

def carry (cmd : Command) : Connection := { c with carried := c.carried ++ [cmd] }

def clear : Connection := { c with sock := { c.sock with authed := false } }

def close : Connection := { c with closed := true }

def reply (r : Result) : Bool × Connection :=
  (r.ok, { c with sock := r.sock, closed := c.closed || decide (Effect.shutdown ∈ r.effects) })

end Connection

/-- The surroundings of a connection: what the handlers read elsewhere when so many commands have been
carried out, and what lies where a token was not received. -/
structure Surroundings where
  crypto : Crypto
  env : ℕ → Env
  stale : ℕ → Bytes

namespace Connection
variable (S : Surroundings) (c : Connection)

def env : Env := S.env c.carried.length

def readChallenge (flooded : Bool) (command : Received AuthLogonChallenge_C → Command) : Bool × Connection :=
  let answer := fun ch => handle S.crypto (c.env S) (command ch) c.sock
  if c.input.length < sizeofLogonChallenge then c.reply (answer .short)
  else if flooded then c.reply (answer .incomplete)
  else
    let remaining := remainingOf c.input
    let header := c.skip 4
    if remaining < sizeofLogonChallenge - 4 ∨ header.input.length < remaining then header.reply (answer .incomplete)
    else
      let ch := Received.full (challengeOf (c.input.take (4 + remaining)))
      ((header.skip remaining).carry (command ch)).reply (answer ch)

def onLogonChallenge : Bool × Connection := c.readChallenge S (c.env S).flooded .logonChallenge

def onReconnectChallenge : Bool × Connection := c.readChallenge S false .reconnectChallenge

def wantsToken (lp : AuthLogonProof_C) : Bool :=
  reachesKey c.sock lp && matchesM1 S.crypto (c.env S) { c.sock with authed := false } lp &&
    decide (lp.securityFlags &&& 4 ≠ 0 ∨ c.sock.tokenKey ≠ [])

def readToken (behind : Bytes) : Bytes × ℕ :=
  match behind with
  | [] => (S.stale c.carried.length, 0)
  | size :: text =>
    if text.length < size.toNat then (S.stale c.carried.length, 1) else (cstr (text.take size.toNat), 1 + size.toNat)

def onLogonProof : Bool × Connection :=
  if c.input.length < sizeofLogonProof then c.reply (handle S.crypto (c.env S) (.logonProof none) c.sock)
  else
    let token :=
      if c.wantsToken S (proofOf c.input []) then c.readToken S (c.input.drop sizeofLogonProof) else ([], 0)
    let command := Command.logonProof (some (proofOf c.input token.1))
    ((c.skip (sizeofLogonProof + token.2)).carry command).reply (handle S.crypto (c.env S) command c.sock)

def onReconnectProof : Bool × Connection :=
  if c.input.length < sizeofReconnectProof then c.reply (handle S.crypto (c.env S) (.reconnectProof none) c.sock)
  else
    let command := Command.reconnectProof (some (reconnectProofOf c.input))
    ((c.skip sizeofReconnectProof).carry command).reply (handle S.crypto (c.env S) command c.sock)

def onRealmList : Bool × Connection :=
  if c.input.length < 5 then c.reply (handle S.crypto (c.env S) (.realmList false) c.sock)
  else ((c.skip 5).carry (.realmList true)).reply (handle S.crypto (c.env S) (.realmList true) c.sock)

/-- The handler that `table` gives to a command, called; `none` for an unknown one. -/
def dispatch (cmd : UInt8) : Option (Bool × Connection) :=
  if cmd = AUTH_LOGON_CHALLENGE then some (c.onLogonChallenge S)
  else if cmd = AUTH_LOGON_PROOF then some (c.onLogonProof S)
  else if cmd = AUTH_RECONNECT_CHALLENGE then some (c.onReconnectChallenge S)
  else if cmd = AUTH_RECONNECT_PROOF then some (c.onReconnectProof S)
  else if cmd = REALM_LIST ∧ c.sock.authed then some (c.onRealmList S)
  else if cmd = XFER_ACCEPT ∨ cmd = XFER_RESUME then some (false, c)
  else if cmd = XFER_CANCEL then some (true, (c.skip 1).close)
  else none

def countChallenge (cmd : UInt8) (challengesInARow : ℕ) : ℕ :=
  if cmd = AUTH_LOGON_CHALLENGE then challengesInARow + 1 else challengesInARow

def onReadLoop : ℕ → ℕ → Connection → Option Connection
  | 0, _, _ => none
  | fuel + 1, challengesInARow, c =>
    match c.input with
    | [] => some c
    | cmd :: _ =>
      if cmd = AUTH_LOGON_CHALLENGE ∧ countChallenge cmd challengesInARow = MAX_AUTH_LOGON_CHALLENGES_IN_A_ROW then
        some c.close
      else
        match c.dispatch S cmd with
        | none => some c.close
        | some (true, c') => onReadLoop fuel (countChallenge cmd challengesInARow) c'
        | some (false, c') => some c'

def rounds : ℕ := c.input.length + MAX_AUTH_LOGON_CHALLENGES_IN_A_ROW + 1

def onRead : Option Connection := onReadLoop S c.rounds 0 c

def receive : List Bytes → Connection → Option Connection
  | [], c => some c
  | segment :: rest, c => if c.closed then some c else ((c.feed segment).onRead S).bind (receive rest)

end Connection

/-! ### The loop ends -/

section Rounds
variable {S : Surroundings} {c c' : Connection}

theorem skip_length {n : ℕ} (hpos : 0 < n) (hle : n ≤ c.input.length) : (c.skip n).input.length < c.input.length := by
  unfold Connection.skip
  rw [List.length_drop]
  omega

theorem skip_length_le (c : Connection) (n : ℕ) : (c.skip n).input.length ≤ c.input.length := by
  unfold Connection.skip
  rw [List.length_drop]
  omega

theorem readChallenge_shorter (flooded : Bool) (command : Received AuthLogonChallenge_C → Command) :
    ((c.readChallenge S flooded command).2.input = c.input ∧
      (flooded = true ∨ (c.readChallenge S flooded command).1 =
        (handle S.crypto (c.env S) (command .short) c.sock).ok)) ∨
      (c.readChallenge S flooded command).2.input.length < c.input.length := by
  unfold Connection.readChallenge
  simp only
  split
  · exact .inl ⟨rfl, .inr rfl⟩
  split
  · exact .inl ⟨rfl, .inl ‹_›⟩
  rename_i hlen _
  have hfour : 4 ≤ c.input.length := by unfold sizeofLogonChallenge at hlen; omega
  have hskip := skip_length (c := c) (by decide) hfour
  split
  · exact .inr hskip
  · exact .inr ((skip_length_le (c.skip 4) _).trans_lt hskip)

theorem dispatch_again {cmd : UInt8} (hne : c.input ≠ []) (h : c.dispatch S cmd = some (true, c')) :
    (cmd = AUTH_LOGON_CHALLENGE ∧ c'.input = c.input) ∨ c'.input.length < c.input.length := by
  have hpos := List.length_pos_iff.mpr hne
  unfold Connection.dispatch at h
  split at h
  · rename_i hcmd
    have hc := (Prod.mk.inj (Option.some.inj h)).2
    rw [← hc]
    exact (readChallenge_shorter _ _).imp_left fun hsame => ⟨hcmd, hsame.1⟩
  split at h
  · right
    unfold Connection.onLogonProof at h
    split at h
    · exact absurd (Prod.mk.inj (Option.some.inj h)).1 Bool.false_ne_true
    · rw [← (Prod.mk.inj (Option.some.inj h)).2]
      rename_i hlen
      have hskip := skip_length (c := c) (n := sizeofLogonProof) (by decide) (Nat.not_lt.mp hlen)
      refine lt_of_le_of_lt ?_ hskip
      show (c.input.drop _).length ≤ (c.input.drop _).length
      rw [List.length_drop, List.length_drop]
      omega
  split at h
  · right
    have hc : c.readChallenge S false .reconnectChallenge = (true, c') := Option.some.inj h
    have hshorter := readChallenge_shorter (S := S) (c := c) false .reconnectChallenge
    rw [hc] at hshorter
    refine hshorter.resolve_left ?_
    rintro ⟨-, hflooded | hok⟩
    · exact Bool.false_ne_true hflooded
    · exact Bool.false_ne_true hok.symm
  split at h
  · right
    unfold Connection.onReconnectProof at h
    split at h
    · exact absurd (Prod.mk.inj (Option.some.inj h)).1 Bool.false_ne_true
    · rw [← (Prod.mk.inj (Option.some.inj h)).2]
      exact skip_length (by decide) (Nat.not_lt.mp ‹_›)
  split at h
  · right
    unfold Connection.onRealmList at h
    split at h
    · rename_i hauth _
      have hok : (handle S.crypto (c.env S) (.realmList false) c.sock).ok = true :=
        (Prod.mk.inj (Option.some.inj h)).1
      have hfalse : (handle S.crypto (c.env S) (.realmList false) c.sock).ok = false := by
        show (if c.sock.authed then handleRealmList (c.env S) false c.sock else _).ok = false
        rw [if_pos hauth.2]
        rfl
      exact absurd (hfalse.symm.trans hok) Bool.false_ne_true
    · rw [← (Prod.mk.inj (Option.some.inj h)).2]
      exact skip_length (by decide) (Nat.not_lt.mp ‹_›)
  split at h
  · exact absurd (Prod.mk.inj (Option.some.inj h)).1 Bool.false_ne_true
  split at h
  · rw [← (Prod.mk.inj (Option.some.inj h)).2]
    exact .inr (skip_length (by decide) hpos)
  · exact absurd h (Option.some_ne_none _).symm

theorem onReadLoop_ends (fuel : ℕ) : ∀ (n : ℕ) (c : Connection), n < MAX_AUTH_LOGON_CHALLENGES_IN_A_ROW →
    c.input.length + (MAX_AUTH_LOGON_CHALLENGES_IN_A_ROW - n) < fuel →
    ∃ c', Connection.onReadLoop S fuel n c = some c' := by
  induction fuel with
  | zero => exact fun n c _ hlt => absurd hlt (Nat.not_lt_zero _)
  | succ fuel ih =>
    intro n c hn hlt
    unfold Connection.onReadLoop
    cases hinput : c.input with
    | nil => exact ⟨c, rfl⟩
    | cons cmd rest =>
      simp only
      by_cases hrow : cmd = AUTH_LOGON_CHALLENGE ∧ Connection.countChallenge cmd n = MAX_AUTH_LOGON_CHALLENGES_IN_A_ROW
      · exact ⟨c.close, if_pos hrow⟩
      rw [if_neg hrow]
      cases hdispatch : c.dispatch S cmd with
      | none => exact ⟨c.close, rfl⟩
      | some result =>
        obtain ⟨ok, c'⟩ := result
        cases ok with
        | false => exact ⟨c', rfl⟩
        | true =>
          have hagain := dispatch_again (List.ne_nil_of_length_pos (by rw [hinput]; exact Nat.succ_pos _)) hdispatch
          unfold Connection.countChallenge at hrow ⊢
          by_cases hcmd : cmd = AUTH_LOGON_CHALLENGE
          · rw [if_pos hcmd] at hrow ⊢
            have hn' : n + 1 ≠ MAX_AUTH_LOGON_CHALLENGES_IN_A_ROW := fun heq => hrow ⟨hcmd, heq⟩
            refine ih _ _ (by omega) ?_
            rcases hagain with ⟨-, hsame⟩ | hshorter
            · rw [hsame]
              omega
            · omega
          · rw [if_neg hcmd]
            have hshorter := hagain.resolve_left fun hch => hcmd hch.1
            exact ih _ _ hn (by omega)

theorem onRead_ends (S : Surroundings) (c : Connection) : ∃ c', c.onRead S = some c' :=
  onReadLoop_ends c.rounds 0 c (by decide) (by unfold Connection.rounds; omega)

end Rounds

end HysteriaCore.Auth

import HysteriaCore.Auth.Segments

/-!
# Calls and runs

What `OnRead` does with harmless rounds are the steps of the whole stream, and these come to one end
however the stream was cut.
-/

namespace HysteriaCore.Auth
open Lib

section Calls
variable {S : Surroundings}

structure Ended (c k : Connection) : Prop where
  closed : c.closed = true ∧ k.closed = true
  consumed : c.consumed = k.consumed
  carried : c.carried = k.carried

variable {c : Connection}

theorem settle_ended (cmd : UInt8) (h : c.closed = true) : Ended (c.settle cmd) c := by
  obtain ⟨-, hclosed, hconsumed, hcarried⟩ := settle_input c cmd
  exact ⟨⟨hclosed.trans h, h⟩, hconsumed, hcarried⟩

theorem Ended.trans {a b c : Connection} (h : Ended a b) (h' : Ended b c) : Ended a c :=
  ⟨⟨h.closed.1, h'.closed.2⟩, h.consumed.trans h'.consumed, h.carried.trans h'.carried⟩

variable {cmd : UInt8}

theorem onReadLoop_round {fuel n : ℕ} {rest : Bytes} (hinput : c.input = cmd :: rest)
    (hrow : ¬ (cmd = AUTH_LOGON_CHALLENGE ∧ n + 1 = MAX_AUTH_LOGON_CHALLENGES_IN_A_ROW)) :
    Connection.onReadLoop S (fuel + 1) n c =
      match c.dispatch S cmd with
      | none => some c.close
      | some (true, c') => Connection.onReadLoop S fuel (Connection.countChallenge cmd n) c'
      | some (false, c') => some c' := by
  have hcount : ¬ (cmd = AUTH_LOGON_CHALLENGE ∧
      Connection.countChallenge cmd n = MAX_AUTH_LOGON_CHALLENGES_IN_A_ROW) := by
    rintro ⟨hcmd, heq⟩
    unfold Connection.countChallenge at heq
    rw [if_pos hcmd] at heq
    exact hrow ⟨hcmd, heq⟩
  rw [Connection.onReadLoop, hinput]
  simp only
  exact (if_neg hcount).trans rfl

theorem onReadLoop_row {fuel n : ℕ} {rest : Bytes} (hinput : c.input = cmd :: rest)
    (hrow : cmd = AUTH_LOGON_CHALLENGE ∧ n + 1 = MAX_AUTH_LOGON_CHALLENGES_IN_A_ROW) :
    Connection.onReadLoop S (fuel + 1) n c = some c.close := by
  rw [Connection.onReadLoop, hinput]
  simp only
  refine if_pos ⟨hrow.1, ?_⟩
  unfold Connection.countChallenge
  rw [if_pos hrow.1]
  exact hrow.2

theorem closed_call {last : Bool} (fuel : ℕ) : ∀ {n : ℕ} {c c' : Connection}, c.closed = true →
    c.HarmlessCall S last fuel n → Connection.onReadLoop S fuel n c = some c' → Ended c' c := by
  induction fuel with
  | zero => exact fun _ _ hrun => absurd hrun (Option.some_ne_none _).symm
  | succ fuel ih =>
    intro n c c' hclosed h hrun
    have hself : Ended c c := ⟨⟨hclosed, hclosed⟩, rfl, rfl⟩
    cases hinput : c.input with
    | nil =>
      rw [Connection.onReadLoop, hinput] at hrun
      rw [← Option.some.inj hrun]
      exact hself
    | cons cmd rest =>
      have hclose : Ended c.close c := ⟨⟨rfl, hclosed⟩, rfl, rfl⟩
      by_cases hrow : cmd = AUTH_LOGON_CHALLENGE ∧ n + 1 = MAX_AUTH_LOGON_CHALLENGES_IN_A_ROW
      · rw [onReadLoop_row hinput hrow] at hrun
        rw [← Option.some.inj hrun]
        exact hclose
      rw [onReadLoop_round hinput hrow] at hrun
      obtain ⟨hharmless, hnext⟩ := h cmd rest hinput
      cases outcome hharmless.whole with
      | waits _ hdispatch =>
        rw [hdispatch] at hrun
        rw [← Option.some.inj hrun]
        exact settle_ended cmd hclosed
      | flooded _ _ hdispatch =>
        rw [hdispatch] at hrun
        have hsettled := settle_ended cmd hclosed
        exact (ih hsettled.closed.1 ((hnext true _ hdispatch).1 rfl) hrun).trans hsettled
      | unknown _ _ hunknown =>
        rw [show c.dispatch S cmd = none from hunknown] at hrun
        rw [← Option.some.inj hrun]
        exact hclose
      | served ok c1 hwaits hflooded hdispatch =>
        -- nothing is served on a closed connection
        rcases hharmless.afterShutdown hclosed cmd rest hinput with hw | hf | hu
        · exact absurd hw hwaits
        · exact absurd hf hflooded
        · exact absurd (hdispatch.symm.trans hu) (Option.some_ne_none _)

theorem call_steps {last : Bool} (fuel : ℕ) : ∀ {n : ℕ} {c c' : Connection}, c.closed = false →
    c.HarmlessCall S last fuel n → Connection.onReadLoop S fuel n c = some c' →
    ∃ k, Steps S c k ∧ ((c'.closed = true ∧ Ended c' k) ∨ (c'.closed = false ∧ k = c' ∧ (last = true → c'.Idle S))) := by
  induction fuel with
  | zero => exact fun _ _ hrun => absurd hrun (Option.some_ne_none _).symm
  | succ fuel ih =>
    intro n c c' hopen h hrun
    cases hinput : c.input with
    | nil =>
      rw [Connection.onReadLoop, hinput] at hrun
      obtain rfl := Option.some.inj hrun
      refine ⟨c, Relation.ReflTransGen.refl, .inr ⟨hopen, rfl, fun _ cmd rest heq => ?_⟩⟩
      rw [hinput] at heq
      exact absurd heq.symm (List.cons_ne_nil _ _)
    | cons cmd rest =>
      obtain ⟨hharmless, hgo⟩ := h cmd rest hinput
      obtain ⟨hin, hclosed', hconsumed, hcarried⟩ := settle_input c cmd
      have hsettled := steps_settle (S := S) hopen hinput
      have hends : Ended c.close (c.settle cmd).close := ⟨⟨rfl, rfl⟩, hconsumed.symm, hcarried.symm⟩
      by_cases hrow : cmd = AUTH_LOGON_CHALLENGE ∧ n + 1 = MAX_AUTH_LOGON_CHALLENGES_IN_A_ROW
      · rw [onReadLoop_row hinput hrow] at hrun
        obtain rfl := Option.some.inj hrun
        -- a challenge that comes too soon shuts the connection down anyway
        obtain ⟨hflooded, hlen⟩ := hharmless.row hopen hrow.1 hrow.2
        have hwaits : ¬ c.Waits S cmd := by
          rw [hrow.1, waits_logonChallenge]
          rintro (hlt | ⟨hno, -⟩)
          · omega
          · rw [hflooded] at hno
            exact Bool.false_ne_true hno.symm
        exact ⟨_, hsettled.tail ((next_settle hopen hinput hwaits).1 ⟨hrow.1, hflooded⟩), .inl ⟨rfl, hends⟩⟩
      rw [onReadLoop_round hinput hrow] at hrun
      cases outcome hharmless.whole with
      | waits hwaits hdispatch =>
        rw [hdispatch] at hrun
        obtain rfl := Option.some.inj hrun
        refine ⟨_, hsettled, .inr ⟨hclosed'.trans hopen, rfl, fun _ cmd' rest' heq => .inl ?_⟩⟩
        rw [hin, hinput] at heq
        obtain ⟨rfl, -⟩ := List.cons.inj heq
        exact (waits_settle c cmd).mpr hwaits
      | flooded _ _ hdispatch =>
        rw [hdispatch] at hrun
        obtain ⟨k, hsteps, hend⟩ := ih (hclosed'.trans hopen) ((hgo true _ hdispatch).1 rfl) hrun
        exact ⟨k, hsettled.trans hsteps, hend⟩
      | unknown hwaits hflooded hunknown =>
        rw [show c.dispatch S cmd = none from hunknown] at hrun
        obtain rfl := Option.some.inj hrun
        have hnext := (next_settle hopen hinput hwaits).2 hflooded
        rw [show c.dispatch S cmd = none from hunknown] at hnext
        exact ⟨_, hsettled.tail hnext, .inl ⟨rfl, hends⟩⟩
      | served ok c1 hwaits hflooded hdispatch =>
        have hnext := (next_settle hopen hinput hwaits).2 hflooded
        rw [hdispatch] at hnext
        have hsteps : Steps S c c1 := hsettled.tail hnext
        obtain ⟨hagain, hgiveUp⟩ := hgo ok c1 hdispatch
        rw [hdispatch] at hrun
        cases ok with
        | false =>
          obtain rfl := Option.some.inj hrun
          cases hclosed : c1.closed with
          | true => exact ⟨c1, hsteps, .inl ⟨rfl, ⟨hclosed, hclosed⟩, rfl, rfl⟩⟩
          | false => exact ⟨c1, hsteps, .inr ⟨rfl, rfl, fun hlast => hgiveUp rfl hlast hclosed⟩⟩
        | true =>
          cases hclosed : c1.closed with
          | true =>
            have hended := closed_call fuel hclosed (hagain rfl) hrun
            exact ⟨c1, hsteps, .inl ⟨hended.closed.1, hended⟩⟩
          | false =>
            obtain ⟨k, hsteps', hend⟩ := ih hclosed (hagain rfl) hrun
            exact ⟨k, hsteps.trans hsteps', hend⟩

theorem readChallenge_cut (command : Received AuthLogonChallenge_C → Command) {flooded : Bool}
    (hlen : sizeofLogonChallenge ≤ c.input.length) (hwaits : c.challengeWaits flooded) :
    (c.readChallenge S flooded command).2.input = c.input.drop 4 := by
  obtain ⟨hno, hle, hlt⟩ := hwaits.resolve_left (Nat.not_lt.mpr hlen)
  have hfour : 4 ≤ c.input.length := le_trans (by decide) hlen
  have hskip : (c.skip 4).input.length = c.input.length - 4 := List.length_drop
  unfold Connection.readChallenge
  simp only
  rw [if_neg (Nat.not_lt.mpr hlen), if_neg (by rw [hno]; decide), if_pos (.inr (by omega))]
  rfl

theorem dispatch_cut {c c' : Connection} {ok : Bool} (h : c.Cut S cmd)
    (hdispatch : c.dispatch S cmd = some (ok, c')) : c'.input.length < c.input.length := by
  rcases h with ⟨rfl, hlen, hwaits⟩ | ⟨rfl, hlen, -⟩ | ⟨rfl, hlen, hwaits⟩
  · have hcut := readChallenge_cut (S := S) .logonChallenge hlen hwaits
    have hc : (c.onLogonChallenge S).2 = c' := congrArg Prod.snd (Option.some.inj hdispatch)
    unfold Connection.onLogonChallenge at hc
    rw [← hc, hcut, List.length_drop]
    unfold sizeofLogonChallenge at hlen
    omega
  · have hc : (c.onLogonProof S).2 = c' := congrArg Prod.snd (Option.some.inj hdispatch)
    unfold Connection.onLogonProof at hc
    rw [if_neg (Nat.not_lt.mpr hlen)] at hc
    rw [← hc]
    show (c.input.drop _).length < _
    rw [List.length_drop]
    unfold sizeofLogonProof at hlen ⊢
    omega
  · have hcut := readChallenge_cut (S := S) .reconnectChallenge hlen hwaits
    have hc : (c.onReconnectChallenge S).2 = c' := congrArg Prod.snd (Option.some.inj hdispatch)
    unfold Connection.onReconnectChallenge at hc
    rw [← hc, hcut, List.length_drop]
    unfold sizeofLogonChallenge at hlen
    omega

theorem receive_closed (h : c.closed = true) (segments : List Bytes) : Connection.receive S segments c = some c := by
  cases segments with
  | nil => rfl
  | cons segment rest => exact if_pos h

theorem run_steps (segments : List Bytes) : ∀ {c : Connection}, c.closed = false →
    c.HarmlessRun S segments → (segments = [] → c.Idle S) →
    ∃ c' k, Connection.receive S segments c = some c' ∧ Steps S (c.feed segments.flatten) k ∧ k.next S = none ∧
      k.carried = c'.carried ∧ k.consumed = c'.consumed := by
  induction segments with
  | nil =>
    intro c _ _ hidle
    obtain ⟨k, hsteps, hstop, hcarried, hconsumed⟩ := steps_idle (hidle rfl)
    have hfeed : c.feed [] = c := by
      unfold Connection.feed
      rw [List.append_nil]
    rw [List.flatten_nil, hfeed]
    exact ⟨c, k, rfl, hsteps, hstop, hcarried, hconsumed⟩
  | cons segment rest ih =>
    intro c hopen h _
    obtain ⟨hcall, hrest⟩ := h hopen
    obtain ⟨c1, hread⟩ := onRead_ends S (c.feed segment)
    obtain ⟨k1, hsteps, hend⟩ := call_steps _ (show (c.feed segment).closed = false from hopen) hcall hread
    have hfeed : (c.feed segment).feed rest.flatten = c.feed (segment :: rest).flatten := by
      unfold Connection.feed
      rw [List.flatten_cons, List.append_assoc]
    have hlong := steps_feed rest.flatten hsteps
    rw [hfeed] at hlong
    have hreceive : Connection.receive S (segment :: rest) c = Connection.receive S rest c1 := by
      rw [Connection.receive, if_neg (by rw [hopen]; decide), hread]
      rfl
    rw [hreceive]
    rcases hend with ⟨hclosed, hended⟩ | ⟨hopen', rfl, hidle⟩
    · exact ⟨c1, k1.feed rest.flatten, receive_closed hclosed rest, hlong, if_pos hended.closed.2, hended.carried.symm,
        hended.consumed.symm⟩
    · obtain ⟨c', k, hrun, hsteps', hstop, hsame⟩ := ih hopen' (hrest _ hread) fun hnil => hidle (by rw [hnil]; rfl)
      exact ⟨c', k, hrun, hlong.trans hsteps', hstop, hsame⟩

end Calls

/-- `OnRead` returns for every content of the buffer. A handler whose packet is incomplete leaves the buffer
as it is if and only if it has not taken bytes of it. Two runs over the same stream whose rounds are all harmless
carry out the same commands and consume the same bytes. -/
theorem segmentation_harmless (S : Surroundings) :
    (∀ c : Connection, ∃ c', c.onRead S = some c') ∧
    (∀ (c c' : Connection) (cmd : UInt8) (rest : Bytes) (ok : Bool), c.input = cmd :: rest → c.Waits S cmd →
      c.dispatch S cmd = some (ok, c') → (c'.input = c.input ↔ ¬ c.Cut S cmd)) ∧
    ∀ (c : Connection) (segments segments' : List Bytes), c.closed = false → c.input = [] →
      segments.flatten = segments'.flatten → c.HarmlessRun S segments → c.HarmlessRun S segments' →
      ∃ c1 c2, Connection.receive S segments c = some c1 ∧ Connection.receive S segments' c = some c2 ∧
        c1.carried = c2.carried ∧ c1.consumed = c2.consumed := by
  refine ⟨onRead_ends S, ?_, ?_⟩
  · intro c c' cmd rest ok _ hwaits hdispatch
    constructor
    · intro hsame hcut
      have hlt := dispatch_cut hcut hdispatch
      rw [hsame] at hlt
      exact lt_irrefl _ hlt
    · intro hwhole
      have hsettled := dispatch_waits hwaits hwhole
      rw [hdispatch] at hsettled
      rw [(Prod.mk.inj (Option.some.inj hsettled)).2]
      exact (settle_input c cmd).1
  · intro c segments segments' hopen hempty hsame h h'
    have hidle : c.Idle S := by
      intro cmd rest heq
      rw [hempty] at heq
      exact absurd heq.symm (List.cons_ne_nil _ _)
    obtain ⟨c1, k, hrun, hsteps, hstop, hcarried, hconsumed⟩ := run_steps segments hopen h fun _ => hidle
    obtain ⟨c2, k', hrun', hsteps', hstop', hcarried', hconsumed'⟩ := run_steps segments' hopen h' fun _ => hidle
    rw [hsame] at hsteps
    obtain rfl := steps_unique hsteps hsteps' hstop hstop'
    exact ⟨c1, c2, hrun, hrun', hcarried.symm.trans hcarried', hconsumed.symm.trans hconsumed'⟩

def challengeBytes : Bytes :=
  [0, 8, 36, 0] ++ ascii "WoW" ++ [0, 3, 3, 5, 52, 48] ++ ascii "68x" ++ [0] ++ ascii "niW" ++ [0] ++ ascii "SUne" ++
    [0, 0, 0, 0, 127, 0, 0, 1, 6] ++ ascii "NOBODY"

def plainSurroundings (C : Crypto) : Surroundings := ⟨C, fun _ => plainEnv, fun _ => []⟩

theorem harmless_challengeBytes (C : Crypto) (last : Bool) (fuel : ℕ) :
    (Connection.new.feed challengeBytes).HarmlessCall (plainSurroundings C) last fuel 0 := by
  cases fuel with
  | zero => trivial
  | succ fuel =>
    intro cmd rest hinput
    obtain rfl : 0 = cmd := Option.some.inj (congrArg List.head? hinput)
    refine ⟨⟨?_, fun hclosed => absurd hclosed Bool.false_ne_true, fun _ _ hrow => absurd hrow (by decide)⟩, ?_⟩
    · rintro (⟨-, hlen, hwaits⟩ | ⟨hcmd, -⟩ | ⟨hcmd, -⟩)
      · obtain ⟨-, -, hlt⟩ := hwaits.resolve_left (Nat.not_lt.mpr hlen)
        exact absurd hlt (by decide)
      · exact absurd hcmd (by decide)
      · exact absurd hcmd (by decide)
    · intro ok c' hdispatch
      have hserved : ((Connection.new.feed challengeBytes).dispatch (plainSurroundings C) 0).map
          (fun r => (r.1, r.2.input)) = some (true, []) := rfl
      rw [hdispatch] at hserved
      obtain ⟨hok, hempty⟩ := Prod.mk.inj (Option.some.inj hserved)
      refine ⟨fun _ => ?_, fun hfalse => absurd (hok.symm.trans hfalse) Bool.false_ne_true.symm⟩
      cases fuel with
      | zero => trivial
      | succ fuel =>
        intro cmd' rest' heq
        rw [hempty] at heq
        exact absurd heq.symm (List.cons_ne_nil _ _)

/-- The challenge in one piece, and in two with the cut inside the fixed part. -/
theorem segmentation_harmless_challenge : ¬ ∃ C : Crypto, ¬ ∃ c1 c2,
    Connection.receive (plainSurroundings C) [challengeBytes] .new = some c1 ∧
    Connection.receive (plainSurroundings C) [challengeBytes.take 10, challengeBytes.drop 10] .new = some c2 ∧
    c1.carried = c2.carried ∧ c1.consumed = c2.consumed := by
  rintro ⟨C, hC⟩
  have hwhole : Connection.new.HarmlessRun (plainSurroundings C) [challengeBytes] :=
    fun _ => ⟨harmless_challengeBytes C _ _, fun _ _ => trivial⟩
  have htwo : Connection.new.HarmlessRun (plainSurroundings C) [challengeBytes.take 10, challengeBytes.drop 10] := by
    intro _
    refine ⟨?_, fun c' hread => ?_⟩
    · intro cmd rest hinput
      obtain rfl : 0 = cmd := Option.some.inj (congrArg List.head? hinput)
      refine ⟨⟨?_, fun hclosed => absurd hclosed Bool.false_ne_true, fun _ _ hrow => absurd hrow (by decide)⟩, ?_⟩
      · rintro (⟨-, hlen, -⟩ | ⟨hcmd, -⟩ | ⟨hcmd, -⟩)
        · exact absurd hlen (by decide)
        · exact absurd hcmd (by decide)
        · exact absurd hcmd (by decide)
      · intro ok c' hdispatch
        have hwaits : ((Connection.new.feed (challengeBytes.take 10)).dispatch (plainSurroundings C) 0).map Prod.fst =
            some false := rfl
        rw [hdispatch] at hwaits
        have hok : ok = false := Option.some.inj hwaits
        exact ⟨fun htrue => absurd (hok.symm.trans htrue) Bool.false_ne_true,
          fun _ hlast => absurd hlast Bool.false_ne_true⟩
    · have hkept : (Connection.new.feed (challengeBytes.take 10)).onRead (plainSurroundings C) =
          some (Connection.new.feed (challengeBytes.take 10)) := rfl
      obtain rfl := Option.some.inj (hkept.symm.trans hread)
      exact fun _ => ⟨harmless_challengeBytes C _ _, fun _ _ => trivial⟩
  exact hC ((segmentation_harmless (plainSurroundings C)).2.2 .new _ _ rfl rfl (by decide) hwhole htwo)

/-- The challenge in one piece, and in two with the cut behind the fixed part: the header is gone, and the rest
is no command. -/
theorem challenge_cut_lost : ¬ ∃ C : Crypto, ∀ segments segments' : List Bytes,
    (∀ segment ∈ segments ++ segments', segment ≠ []) → (segments ++ segments').flatten.length ≤ 4096 →
    segments.flatten = segments'.flatten →
    ∃ c1 c2, Connection.receive (plainSurroundings C) segments .new = some c1 ∧
      Connection.receive (plainSurroundings C) segments' .new = some c2 ∧
      c1.carried = c2.carried ∧ c1.consumed = c2.consumed := by
  rintro ⟨C, hC⟩
  obtain ⟨c1, c2, hwhole, hcut, -, hconsumed⟩ :=
    hC [challengeBytes] [challengeBytes.take 36, challengeBytes.drop 36] (by decide) (by decide) (by decide)
  have h1 : (Connection.receive (plainSurroundings C) [challengeBytes] .new).map (fun c => c.consumed) = some 40 := rfl
  have h2 : (Connection.receive (plainSurroundings C) [challengeBytes.take 36, challengeBytes.drop 36] .new).map
      (fun c => c.consumed) = some 4 := rfl
  rw [hwhole] at h1
  rw [hcut] at h2
  have heq : 40 = 4 := (Option.some.inj h1).symm.trans (hconsumed.trans (Option.some.inj h2))
  exact absurd heq (by decide)

end HysteriaCore.Auth

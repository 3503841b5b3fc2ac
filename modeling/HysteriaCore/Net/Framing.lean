import HysteriaCore.Net.Packet

/-!
# Reading packets from a node link (shade/Server/Generics/Socket.cpp, NodeSocket.cpp)

`handle_input_missing_data` resumes wherever the last call ran out of bytes: inside a
header, between header and payload, or inside a payload. The link cipher is never
initialised on these sockets, so it leaves the bytes as they are.
-/

namespace HysteriaCore.Net
open Lib

/-- How a call of `handle_input_missing_data` ends: with 1 or 2, with -1 and `EWOULDBLOCK`,
or with -1 and `EINVAL`. `unfinished` stands for a loop that was cut off. -/
inductive InputResult where
  | returned (n : ℕ)
  | wouldBlock
  | invalid
  | unfinished
  deriving DecidableEq

/-- The receiving half of a `NodeSocket`. `recvWPct` is the opcode of the packet under
construction; its contents are the buffer of `recvPct`. `processed` lists the calls of
`_processIncoming`, and `asserted` says that every `ACE_ASSERT` so far held. -/
structure Reader where
  header : MessageBlock
  recvWPct : Option (Fin (2^16))
  recvPct : MessageBlock
  processed : List WorldPacket
  asserted : Bool
  deriving DecidableEq

namespace Reader

def initial : Reader := ⟨⟨6, []⟩, none, ⟨0, []⟩, [], true⟩

def assert (r : Reader) (c : Prop) [Decidable c] : Reader :=
  { r with asserted := r.asserted && decide c }

/-- `NodeSocket::_handleInputHeader`; false is the return value -1. -/
def handleInputHeader (r : Reader) : Bool × Reader :=
  let r := r.assert (r.recvWPct = none ∧ r.header.data.length = 6)
  match Flexi.clientPktHeader r.header.data with
  | some header =>
    if header.size < 2 then (false, r)
    else
      let size := header.size - 2
      let r := { r with recvWPct := some header.cmd }
      if 0 < size then (true, { r with recvPct := ⟨size, []⟩ })
      else (true, r.assert (r.recvPct.space = 0))
  | none => (false, r)

/-- `Socket::handle_input_payload`; `NodeSocket::_processIncoming` always returns 0. -/
def handleInputPayload (r : Reader) : Reader :=
  let r := r.assert (r.recvPct.space = 0 ∧ r.header.space = 0 ∧ r.recvWPct ≠ none)
  { r with
    processed := r.processed ++ (r.recvWPct.map fun opcode => ⟨opcode, r.recvPct.data⟩).toList
    recvPct := ⟨0, []⟩
    recvWPct := none
    header := r.header.reset }

/-- The header part of one turn of the loop: the rest of the chunk, and how the call ends
where it ends here. -/
def readHeader (r : Reader) (buf : Bytes) : Reader × Bytes × Option InputResult :=
  if 0 < r.header.space then
    let toHeader := if r.header.space < buf.length then r.header.space else buf.length
    let r := { r with header := r.header.copy (buf.take toHeader) }
    let buf := buf.drop toHeader
    if 0 < r.header.space then (r.assert (buf.length = 0), buf, some .wouldBlock)
    else
      match r.handleInputHeader with
      | (true, r) => (r, buf, none)
      | (false, r) => (r, buf, some .invalid)
  else (r, buf, none)

def readPayload (r : Reader) (buf : Bytes) : Reader × Bytes × Option InputResult :=
  if r.recvWPct = none then (r, buf, some .invalid)
  else if 0 < r.recvPct.space then
    let toData := if r.recvPct.space < buf.length then r.recvPct.space else buf.length
    let r := { r with recvPct := r.recvPct.copy (buf.take toData) }
    let buf := buf.drop toData
    if 0 < r.recvPct.space then (r.assert (buf.length = 0), buf, some .wouldBlock)
    else (r.handleInputPayload, buf, none)
  else (r.handleInputPayload, buf, none)

/-- The loop over one chunk; `n` is what the call returns at the end of the chunk. -/
def loop (n : ℕ) : ℕ → Reader → Bytes → Reader × InputResult
  | _, r, [] => (r, .returned n)
  | 0, r, _ :: _ => (r, .unfinished)
  | fuel + 1, r, b :: buf =>
    match r.readHeader (b :: buf) with
    | (r, _, some result) => (r, result)
    | (r, buf, none) =>
      match r.readPayload buf with
      | (r, _, some result) => (r, result)
      | (r, buf, none) => loop n fuel r buf

/-- `handle_input_missing_data` on the bytes that `recv` put in the buffer. -/
def handleInputMissingData (r : Reader) (chunk : Bytes) : Reader × InputResult :=
  if chunk = [] then (r, .returned 0)
  else loop (if chunk.length = 4096 then 1 else 2) chunk.length r chunk

def handleInputs (r : Reader) : List Bytes → Reader × List InputResult
  | [] => (r, [])
  | chunk :: chunks =>
    let (r, result) := r.handleInputMissingData chunk
    let (r, results) := r.handleInputs chunks
    (r, result :: results)

end Reader

/-! ### What the sender writes -/

namespace Flexi

def sendPacket (p : WorldPacket) : Bytes :=
  serverPktHeader (p.contents.length + 2) p.opcode ++ p.contents

def stream (ps : List WorldPacket) : Bytes := ps.flatMap sendPacket

@[simp] theorem stream_nil : stream [] = [] := rfl

theorem stream_cons (p : WorldPacket) (ps : List WorldPacket) :
    stream (p :: ps) =
      serverPktHeader (p.contents.length + 2) p.opcode ++ (p.contents ++ stream ps) := by
  simp [stream, sendPacket]

end Flexi

namespace Reader
open Flexi

/-- The reader before the bytes `rest` of the stream, with the packets `todo` still to be
processed: inside a header, or inside the payload of the next packet. -/
inductive Awaits : Reader → Bytes → List WorldPacket → Prop where
  | header {head rest : Bytes} {todo processed : List WorldPacket} (hlen : head.length < 6)
      (hrest : head ++ rest = stream todo) :
      Awaits ⟨⟨6, head⟩, none, ⟨0, []⟩, processed, true⟩ rest todo
  | payload {head read rest : Bytes} {p : WorldPacket} {todo processed : List WorldPacket}
      (hhead : head.length = 6) (hlen : read.length < p.contents.length)
      (hrest : read ++ rest = p.contents ++ stream todo) :
      Awaits ⟨⟨6, head⟩, some p.opcode, ⟨p.contents.length, read⟩, processed, true⟩ rest (p :: todo)

theorem append_take_drop {read buf front more : Bytes} (h : read ++ buf = front ++ more)
    (hlen : read.length ≤ front.length) :
    read ++ buf.take (front.length - read.length) = front ∧
      buf.drop (front.length - read.length) = more := by
  have htake := congrArg (List.take front.length) h
  have hdrop := congrArg (List.drop front.length) h
  rw [List.take_append, List.take_of_length_le hlen, List.take_left] at htake
  rw [List.drop_append, List.drop_eq_nil_of_le hlen, List.nil_append, List.drop_left] at hdrop
  exact ⟨htake, hdrop⟩

theorem exists_more {buf rest front tail : Bytes} (h : buf ++ rest = front ++ tail)
    (hlen : front.length ≤ buf.length) : ∃ more, buf = front ++ more ∧ more ++ rest = tail := by
  rcases List.append_eq_append_iff.mp h with ⟨more, hfront, hrest⟩ | ⟨more, hbuf, htail⟩
  · have hnil : more = [] := by
      have hlength := congrArg List.length hfront
      rw [List.length_append] at hlength
      exact List.eq_nil_of_length_eq_zero (by omega)
    subst hnil
    exact ⟨[], by simpa using hfront.symm, hrest⟩
  · exact ⟨more, hbuf, htail.symm⟩

theorem take_ite_lt (buf : Bytes) (space : ℕ) :
    buf.take (if space < buf.length then space else buf.length) = buf.take space ∧
      buf.drop (if space < buf.length then space else buf.length) = buf.drop space := by
  split
  · exact ⟨rfl, rfl⟩
  · rename_i h
    have hle : buf.length ≤ space := Nat.le_of_not_lt h
    simp [List.take_of_length_le hle, List.drop_eq_nil_of_le hle]

theorem copy_take (m : MessageBlock) (buf : Bytes) :
    m.copy (buf.take m.space) = { m with data := m.data ++ buf.take m.space } :=
  MessageBlock.copy_of_le (List.length_take_le ..)

theorem copy_short {size : ℕ} {read buf : Bytes} (hlen : read.length + buf.length < size) :
    let space := (MessageBlock.mk size read).space
    let read' := MessageBlock.mk size (read ++ buf)
    0 < space ∧ 0 < read'.space ∧ buf.take space = buf ∧ buf.drop space = [] ∧
      (MessageBlock.mk size read).copy buf = read' := by
  have hle : buf.length ≤ size - read.length := by omega
  have hrest : 0 < size - (read ++ buf).length := by
    rw [List.length_append]
    omega
  have hroom : 0 < size - read.length := by omega
  exact ⟨hroom, hrest, List.take_of_length_le hle, List.drop_eq_nil_of_le hle, MessageBlock.copy_of_le hle⟩

theorem readHeader_short {head buf : Bytes} (hlen : head.length + buf.length < 6)
    (processed : List WorldPacket) :
    readHeader ⟨⟨6, head⟩, none, ⟨0, []⟩, processed, true⟩ buf =
      (⟨⟨6, head ++ buf⟩, none, ⟨0, []⟩, processed, true⟩, [], some .wouldBlock) := by
  obtain ⟨hroom, hrest, htake, hdrop, hcopy⟩ := copy_short hlen
  obtain ⟨h1, h2⟩ := take_ite_lt buf (MessageBlock.mk 6 head).space
  unfold readHeader
  dsimp only
  rw [h1, h2, htake, hdrop, hcopy, if_pos hroom, if_pos hrest]
  simp [assert]

theorem readHeader_full {head buf more : Bytes} {size : ℕ} {cmd : Fin (2^16)} (hlen : head.length < 6)
    (h2 : 2 ≤ size) (hsize : size < 2^32) (hbuf : head ++ buf = serverPktHeader size cmd ++ more)
    (processed : List WorldPacket) :
    readHeader ⟨⟨6, head⟩, none, ⟨0, []⟩, processed, true⟩ buf =
      (⟨⟨6, serverPktHeader size cmd⟩, some cmd, ⟨size - 2, []⟩, processed, true⟩, more, none) := by
  have hspace : (MessageBlock.mk 6 head).space = 6 - head.length := rfl
  obtain ⟨htake, hdrop⟩ := append_take_drop hbuf (by simp only [length_serverPktHeader]; omega)
  rw [length_serverPktHeader] at htake hdrop
  have hcopy := copy_take ⟨6, head⟩ buf
  rw [hspace] at hcopy
  simp only [htake] at hcopy
  have hfull : (MessageBlock.mk 6 (serverPktHeader size cmd)).space = 0 := rfl
  have hread : handleInputHeader ⟨⟨6, serverPktHeader size cmd⟩, none, ⟨0, []⟩, processed, true⟩ =
      (true, ⟨⟨6, serverPktHeader size cmd⟩, some cmd, ⟨size - 2, []⟩, processed, true⟩) := by
    have hnot : ¬ size < 2 := Nat.not_lt.mpr h2
    simp only [handleInputHeader, assert, clientPktHeader_serverPktHeader hsize, hnot, ite_false,
      length_serverPktHeader]
    split
    · simp
    · rename_i hzero
      have heq : size - 2 = 0 := Nat.eq_zero_of_not_pos hzero
      simp [heq, MessageBlock.space]
  obtain ⟨h1, h2⟩ := take_ite_lt buf (6 - head.length)
  unfold readHeader
  dsimp only
  rw [hspace, h1, h2, hdrop, hcopy, if_pos (by omega), hfull, if_neg (by omega), hread]

theorem readPayload_short {header : MessageBlock} {opcode : Fin (2^16)} {n : ℕ} {read buf : Bytes}
    (hlen : read.length + buf.length < n) (processed : List WorldPacket) :
    readPayload ⟨header, some opcode, ⟨n, read⟩, processed, true⟩ buf =
      (⟨header, some opcode, ⟨n, read ++ buf⟩, processed, true⟩, [], some .wouldBlock) := by
  obtain ⟨hroom, hrest, htake, hdrop, hcopy⟩ := copy_short hlen
  obtain ⟨h1, h2⟩ := take_ite_lt buf (MessageBlock.mk n read).space
  unfold readPayload
  dsimp only
  rw [h1, h2, htake, hdrop, hcopy, if_neg (by simp), if_pos hroom, if_pos hrest]
  simp [assert]

theorem readPayload_full {head : Bytes} {opcode : Fin (2^16)} {read buf contents more : Bytes}
    (hhead : head.length = 6) (hlen : read.length ≤ contents.length)
    (hbuf : read ++ buf = contents ++ more) (processed : List WorldPacket) :
    readPayload ⟨⟨6, head⟩, some opcode, ⟨contents.length, read⟩, processed, true⟩ buf =
      (⟨⟨6, []⟩, none, ⟨0, []⟩, processed ++ [⟨opcode, contents⟩], true⟩, more, none) := by
  have hspace : (MessageBlock.mk contents.length read).space = contents.length - read.length := rfl
  obtain ⟨htake, hdrop⟩ := append_take_drop hbuf hlen
  have hdone : handleInputPayload ⟨⟨6, head⟩, some opcode, ⟨contents.length, contents⟩, processed, true⟩ =
      ⟨⟨6, []⟩, none, ⟨0, []⟩, processed ++ [⟨opcode, contents⟩], true⟩ := by
    simp [handleInputPayload, assert, MessageBlock.space, MessageBlock.reset, hhead]
  have hfull : (MessageBlock.mk contents.length contents).space = 0 := Nat.sub_self _
  obtain ⟨h1, h2⟩ := take_ite_lt buf (contents.length - read.length)
  have hcopy := copy_take ⟨contents.length, read⟩ buf
  rw [hspace] at hcopy
  simp only [htake] at hcopy
  unfold readPayload
  dsimp only
  rw [hspace, h1, h2, hdrop, hcopy, if_neg (by simp)]
  by_cases hpos : 0 < contents.length - read.length
  · rw [if_pos hpos, hfull, if_neg (by omega), hdone]
  · have hzero : contents.length - read.length = 0 := Nat.eq_zero_of_not_pos hpos
    rw [hzero, List.take_zero, List.append_nil] at htake
    rw [hzero, List.drop_zero] at hdrop
    rw [if_neg hpos, htake, hdrop, hdone]

def Sendable (p : WorldPacket) : Prop := p.contents.length < 2^32 - 2

instance (p : WorldPacket) : Decidable (Sendable p) := inferInstanceAs (Decidable (_ < _))

def Good (result : InputResult) : Prop :=
  result = .returned 1 ∨ result = .returned 2 ∨ result = .wouldBlock

variable {todo : List WorldPacket}

theorem readPayload_awaits {head read buf rest : Bytes} {p : WorldPacket}
    (hhead : head.length = 6) (hlen : read.length ≤ p.contents.length)
    (hrest : read ++ (buf ++ rest) = p.contents ++ stream todo) (processed : List WorldPacket) :
    (∃ t, readPayload ⟨⟨6, head⟩, some p.opcode, ⟨p.contents.length, read⟩, processed, true⟩ buf =
        (t, [], some .wouldBlock) ∧ t.processed = processed ∧ Awaits t rest (p :: todo)) ∨
      ∃ t more, readPayload ⟨⟨6, head⟩, some p.opcode, ⟨p.contents.length, read⟩, processed, true⟩ buf =
        (t, more, none) ∧ t.processed = processed ++ [p] ∧ Awaits t (more ++ rest) todo ∧
          more.length + p.contents.length = buf.length + read.length := by
  by_cases hshort : read.length + buf.length < p.contents.length
  · left
    refine ⟨_, readPayload_short hshort processed, rfl, .payload hhead ?_ ?_⟩
    · simpa using hshort
    · simpa using hrest
  · right
    have hlen' : p.contents.length ≤ (read ++ buf).length := by
      simp only [List.length_append]
      omega
    have hfront : (read ++ buf) ++ rest = p.contents ++ stream todo := by simpa using hrest
    obtain ⟨more, hsplit, hmore⟩ := exists_more hfront hlen'
    refine ⟨_, more, readPayload_full hhead hlen hsplit processed, rfl, .header (by decide) hmore, ?_⟩
    have hlength := congrArg List.length hsplit
    simp only [List.length_append] at hlength
    omega

theorem loop_awaits {n : ℕ} (hn : n = 1 ∨ n = 2) (fuel : ℕ) (r : Reader) (buf rest : Bytes)
    (todo : List WorldPacket) (hfuel : buf.length ≤ fuel) (htodo : ∀ p ∈ todo, Sendable p)
    (hr : Awaits r (buf ++ rest) todo) :
    Good (loop n fuel r buf).2 ∧
      ∃ todo', Awaits (loop n fuel r buf).1 rest todo' ∧
        (loop n fuel r buf).1.processed ++ todo' = r.processed ++ todo := by
  induction fuel generalizing r buf todo with
  | zero =>
    have hnil : buf = [] := List.eq_nil_of_length_eq_zero (Nat.le_zero.mp hfuel)
    subst hnil
    exact ⟨by rcases hn with rfl | rfl <;> simp [loop, Good], todo, hr, rfl⟩
  | succ fuel ih =>
    cases buf with
    | nil => exact ⟨by rcases hn with rfl | rfl <;> simp [loop, Good], todo, hr, rfl⟩
    | cons b buf =>
      cases hr with
      | @header head _ _ processed hlen hrest =>
        by_cases hshort : head.length + (b :: buf).length < 6
        · have hturn := readHeader_short hshort processed
          have hloop : loop n (fuel + 1) ⟨⟨6, head⟩, none, ⟨0, []⟩, processed, true⟩ (b :: buf) =
              (⟨⟨6, head ++ b :: buf⟩, none, ⟨0, []⟩, processed, true⟩, .wouldBlock) := by
            simp only [loop, hturn]
          rw [hloop]
          refine ⟨.inr (.inr rfl), todo, .header ?_ ?_, rfl⟩
          · simpa using hshort
          · simpa using hrest
        · cases todo with
          | nil =>
            have hlength := congrArg List.length hrest
            simp at hlength
          | cons p todo =>
            have hp : Sendable p := htodo p (List.mem_cons_self ..)
            have hsize : p.contents.length + 2 < 2^32 := by
              unfold Sendable at hp
              omega
            rw [stream_cons, ← List.append_assoc] at hrest
            obtain ⟨more, hsplit, hmore⟩ := exists_more hrest (by
              simp only [length_serverPktHeader, List.length_append]
              omega)
            have hheader := readHeader_full hlen (by omega) hsize hsplit processed
            have hlength : head.length + (b :: buf).length = 6 + more.length := by
              simpa using congrArg List.length hsplit
            rw [Nat.add_sub_cancel] at hheader
            have hnil : [] ++ (more ++ rest) = p.contents ++ stream todo := hmore
            have hfull := length_serverPktHeader (p.contents.length + 2) p.opcode
            rcases readPayload_awaits hfull (Nat.zero_le _) hnil processed with
              ⟨t, hturn, hproc, hawait⟩ | ⟨t, more', hturn, hproc, hawait, hlength'⟩
            · simp only [loop, hheader, hturn]
              exact ⟨.inr (.inr rfl), p :: todo, hawait, by rw [hproc]⟩
            · simp only [loop, hheader, hturn]
              obtain ⟨hgood, todo', hawait', hproc'⟩ :=
                ih t more' todo (by simp only [List.length_cons, List.length_nil] at *; omega)
                  (fun q hq => htodo q (List.mem_cons_of_mem p hq)) hawait
              exact ⟨hgood, todo', hawait', by rw [hproc', hproc]; simp⟩
      | @payload head read _ p todo processed hhead hlen hrest =>
        have hheader : readHeader ⟨⟨6, head⟩, some p.opcode, ⟨p.contents.length, read⟩, processed, true⟩
            (b :: buf) =
              (⟨⟨6, head⟩, some p.opcode, ⟨p.contents.length, read⟩, processed, true⟩, b :: buf, none) := by
          simp [readHeader, MessageBlock.space, hhead]
        rcases readPayload_awaits hhead (Nat.le_of_lt hlen) hrest processed with
          ⟨t, hturn, hproc, hawait⟩ | ⟨t, more, hturn, hproc, hawait, hlength⟩
        · simp only [loop, hheader, hturn]
          exact ⟨.inr (.inr rfl), p :: todo, hawait, by rw [hproc]⟩
        · simp only [loop, hheader, hturn]
          obtain ⟨hgood, todo', hawait', hproc'⟩ :=
            ih t more todo (by simp only [List.length_cons] at *; omega)
              (fun q hq => htodo q (List.mem_cons_of_mem p hq)) hawait
          exact ⟨hgood, todo', hawait', by rw [hproc', hproc]; simp⟩

theorem handleInputMissingData_awaits {r : Reader} {chunk rest : Bytes}
    (hchunk : 1 ≤ chunk.length) (htodo : ∀ p ∈ todo, Sendable p) (hr : Awaits r (chunk ++ rest) todo) :
    Good (r.handleInputMissingData chunk).2 ∧
      ∃ todo', Awaits (r.handleInputMissingData chunk).1 rest todo' ∧
        (r.handleInputMissingData chunk).1.processed ++ todo' = r.processed ++ todo := by
  have hne : chunk ≠ [] := List.ne_nil_of_length_pos hchunk
  unfold handleInputMissingData
  rw [if_neg hne]
  refine loop_awaits ?_ chunk.length r chunk rest todo (Nat.le_refl _) htodo hr
  split
  · exact .inl rfl
  · exact .inr rfl

theorem handleInputs_awaits {r : Reader} {chunks : List Bytes}
    (hchunks : ∀ chunk ∈ chunks, 1 ≤ chunk.length) (hall : ∀ p ∈ r.processed ++ todo, Sendable p)
    (hr : Awaits r chunks.flatten todo) :
    (∀ result ∈ (r.handleInputs chunks).2, Good result) ∧
      ∃ todo', Awaits (r.handleInputs chunks).1 [] todo' ∧
        (r.handleInputs chunks).1.processed ++ todo' = r.processed ++ todo := by
  induction chunks generalizing r todo with
  | nil => exact ⟨fun _ h => absurd h List.not_mem_nil, todo, hr, rfl⟩
  | cons chunk chunks ih =>
    rw [List.flatten_cons] at hr
    obtain ⟨hgood, todo', hr', hproc⟩ :=
      handleInputMissingData_awaits (hchunks chunk (List.mem_cons_self ..))
        (fun p hp => hall p (List.mem_append_right _ hp)) hr
    obtain ⟨hrest, todo'', hr'', hproc'⟩ :=
      ih (fun c hc => hchunks c (List.mem_cons_of_mem _ hc)) (by rw [hproc]; exact hall) hr'
    refine ⟨fun result hmem => ?_, todo'', hr'', hproc'.trans hproc⟩
    rcases List.mem_cons.mp hmem with rfl | hmem
    · exact hgood
    · exact hrest result hmem

theorem Awaits.end_of_stream {r : Reader} (h : Awaits r [] todo) : todo = [] ∧ r.asserted = true := by
  cases h with
  | header hlen hrest =>
    refine ⟨?_, rfl⟩
    cases todo with
    | nil => rfl
    | cons p todo =>
      have hlength := congrArg List.length hrest
      simp only [stream_cons, List.length_append, length_serverPktHeader, List.length_nil] at hlength
      omega
  | payload hhead hlen hrest =>
    have hlength := congrArg List.length hrest
    simp only [List.length_append, List.length_nil] at hlength
    omega

/-- However the stream of a list of packets is cut, the reader hands exactly these packets on,
no assertion fails and no call fails but for lack of data. -/
theorem reads_stream (ps : List WorldPacket) (hps : ∀ p ∈ ps, Sendable p) (chunks : List Bytes)
    (hchunks : ∀ chunk ∈ chunks, 1 ≤ chunk.length ∧ chunk.length ≤ 4096)
    (hcut : chunks.flatten = stream ps) :
    (initial.handleInputs chunks).1.processed = ps ∧ (initial.handleInputs chunks).1.asserted = true ∧
      ∀ result ∈ (initial.handleInputs chunks).2, Good result := by
  have hstart : Awaits initial chunks.flatten ps := .header (by decide) hcut
  obtain ⟨hgood, todo, hend, hproc⟩ :=
    handleInputs_awaits (fun c hc => (hchunks c hc).1) hps hstart
  obtain ⟨rfl, hasserted⟩ := hend.end_of_stream
  exact ⟨(List.append_nil _).symm.trans hproc, hasserted, hgood⟩

/-- An empty packet and one of three bytes, cut inside the first header, right behind the
second header and inside the payload. -/
theorem reads_stream_two :
    (initial.handleInputs [[0, 0, 0], [2, 0x4d, 0, 0, 0, 0, 5, 0x50, 0], [1, 2], [3]]).1.processed =
      [⟨0x4d, []⟩, ⟨0x50, [1, 2, 3]⟩] :=
  (reads_stream [⟨0x4d, []⟩, ⟨0x50, [1, 2, 3]⟩] (by decide) _ (by decide) (by decide)).1

end Reader

end HysteriaCore.Net

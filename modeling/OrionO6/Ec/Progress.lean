import OrionO6.Ec.Unpacking

/-!
# Progress on arbitrary input

The receive loop of `send_cmd` on a stream of which nothing is assumed. Every completed round takes
a whole packet of at least eight bytes, so the loop ends, and what it leaves behind starts at a
packet boundary: it waits for the rest of a packet, rejects one, or returns after the first packet
that carries the EOM flag.
-/

namespace OrionO6.Ec

open Serial

/-! ### What a round depends on -/

theorem EcUart.settled_read (buffer : List UInt8) (start stop : Nat) :
    Comp.Settled (EcUart.read buffer start stop) :=
  (Comp.Settled.orPanic _ _).bind fun window =>
    (Comp.Settled.receive window.length).bind fun _ => Comp.Settled.orPanic _ _

theorem settled_receivePacket (out : Reassembly) : Comp.Settled (receivePacket out) := by
  apply (EcUart.settled_read _ _ _).bind
  intro buffer
  dsimp only
  split
  · apply (EcUart.settled_read _ _ _).bind
    intro buffer
    apply (Comp.Settled.orPanic _ _).bind
    intro outSlice
    exact (Comp.Settled.orPanic _ _).bind fun outBuf => Comp.Settled.pure _
  · exact Comp.Settled.panic _

/-! ### How the loop ends -/

/-- What keeps a round waiting: part of an SMBus header, or part of a packet. -/
def Incomplete (tail : List UInt8) : Prop :=
  tail.length < smbusPacketHeaderBytes ∨
    ∃ packet : Packet, tail <+: packet.bytes ∧ tail ≠ packet.bytes

/-- How the loop ends on the bytes that follow the packets it has completed, when these left
`received` in the reassembly buffer. -/
inductive Ends (sent : List (List UInt8)) (received : List UInt8) :
    List UInt8 → Outcome Panic UInt8 Reassembly → Prop where
  | waits {tail : List UInt8} (hincomplete : Incomplete tail) :
      Ends sent received tail (.blocked ⟨sent, []⟩)
  | rejectsLength {tail : List UInt8} {count : UInt8} (hheader : smbusPacketHeaderBytes ≤ tail.length)
      (hcount : tail[2]? = some count)
      (hlength : ¬ (mctpPacketHeaderBytes ≤ count.toNat ∧ count.toNat ≤ maxMctpPacketLen)) :
      Ends sent received tail
        (.panicked (.invalidMctpPacketLength count.toNat)
          ⟨sent, tail.drop smbusPacketHeaderBytes⟩)
  | rejectsPayload {packet : Packet} {rest : List UInt8}
      (hreject : ¬ RoundAccepts received packet) :
      Ends sent received (packet.bytes ++ rest) (.panicked .outOfRange ⟨sent, rest⟩)
  | returns {packet : Packet} {rest : List UInt8} (heom : packet.eom = true) :
      Ends sent received (packet.bytes ++ rest)
        (.done (Reassembly.holding (received ++ packet.payload)) ⟨sent, rest⟩)

/-- A stream that is shorter than its byte count says is part of a packet. -/
theorem incomplete_of_short_body {stream : List UInt8} {count : UInt8}
    (hcount : stream[2]? = some count)
    (hlength : mctpPacketHeaderBytes ≤ count.toNat ∧ count.toNat ≤ maxMctpPacketLen)
    (hshort : stream.length < 4 + count.toNat) : Incomplete stream := by
  have hindex : 2 < stream.length := (List.getElem?_eq_some_iff.mp hcount).1
  have hpadded : (Buffer.padTo (4 + count.toNat) 0 stream).length = 4 + count.toNat :=
    Buffer.length_padTo _ _ _
  have hbytes : Buffer.padTo (4 + count.toNat) 0 stream =
      stream ++ List.replicate (4 + count.toNat - stream.length) 0 := by
    rw [Buffer.padTo, List.take_of_length_le (Nat.le_of_lt hshort)]
  rw [hbytes] at hpadded
  obtain ⟨packet, hpacket, -⟩ := Packet.exists_bytes_eq
    (by rw [List.getElem?_append_left hindex, hcount]) hlength.1 hlength.2 hpadded
  refine Or.inr ⟨packet, ?_, ?_⟩
  · rw [hpacket]
    exact List.prefix_append _ _
  · intro hwhole
    have hwholeLength := congrArg List.length (hwhole.trans hpacket)
    omega

/-- **One round on any stream.** Either it is the round in which the loop ends, or it completes a
packet without the EOM flag. -/
theorem round_ends_or_continues (received : List UInt8) (hreceived : received.length ≤ bufsz)
    (sent : List (List UInt8)) (stream : List UInt8) :
    Ends sent received stream
        ((packetBody.loop (Reassembly.holding received)).run ⟨sent, stream⟩) ∨
      ∃ (packet : Packet) (rest : List UInt8), stream = packet.bytes ++ rest ∧
        packet.eom = false ∧ (received ++ packet.payload).length ≤ bufsz ∧
        (packetBody.loop (Reassembly.holding received)).run ⟨sent, stream⟩ =
          (packetBody.loop (Reassembly.holding (received ++ packet.payload))).run ⟨sent, rest⟩ := by
  rcases Nat.lt_or_ge stream.length smbusPacketHeaderBytes with hshort | hheader
  · left
    rw [packetBody.loop_of_blocked (receivePacket_of_short_header _ sent hshort)]
    exact .waits (Or.inl hshort)
  obtain ⟨count, hcount⟩ : ∃ count, stream[2]? = some count :=
    ⟨_, List.getElem?_eq_getElem (Nat.lt_of_lt_of_le (by decide) hheader)⟩
  by_cases hlength : mctpPacketHeaderBytes ≤ count.toNat ∧ count.toNat ≤ maxMctpPacketLen
  · rcases Nat.lt_or_ge stream.length (4 + count.toNat) with hshort | hbody
    · left
      rw [packetBody.loop_of_blocked
        (receivePacket_of_short_body _ sent hheader hcount hlength hshort)]
      exact .waits (incomplete_of_short_body hcount hlength hshort)
    · obtain ⟨packet, rest, rfl⟩ := exists_packet_of_body hcount hlength hbody
      by_cases haccept : RoundAccepts received packet
      · have hpacket := round_of_accepts received packet sent rest haccept
        cases heom : packet.eom with
        | true =>
            left
            rw [heom] at hpacket
            rw [packetBody.loop_of_stop hpacket]
            exact .returns heom
        | false =>
            right
            rw [heom] at hpacket
            refine ⟨packet, rest, rfl, heom, ?_, packetBody.loop_of_continue hpacket⟩
            rw [List.length_append]
            exact haccept.2
      · left
        rw [packetBody.loop_of_panicked
          (round_of_not_accepts received packet sent rest hreceived haccept)]
        exact .rejectsPayload haccept
  · left
    rw [packetBody.loop_of_panicked
      (receivePacket_of_length_rejected _ sent hheader hcount hlength)]
    exact .rejectsLength hheader hcount hlength

/-- A run of the loop, by induction on the stream: the packets it completes all lack the EOM flag,
and it ends on what follows them. -/
theorem loop_ends (sent : List (List UInt8)) (stream : List UInt8) :
    ∀ received : List UInt8, received.length ≤ bufsz →
      ∃ (packets : List Packet) (tail : List UInt8),
        stream = packets.flatMap Packet.bytes ++ tail ∧ (∀ packet ∈ packets, packet.eom = false) ∧
        Ends sent (received ++ packets.flatMap Packet.payload) tail
          ((packetBody.loop (Reassembly.holding received)).run ⟨sent, stream⟩) := by
  induction hlength : stream.length using Nat.strongRecOn generalizing stream with
  | ind length ih =>
      intro received hreceived
      rcases round_ends_or_continues received hreceived sent stream with
        hends | ⟨packet, rest, rfl, heom, hroom, hcontinue⟩
      · refine ⟨[], stream, rfl, by simp, ?_⟩
        rwa [List.flatMap_nil, List.append_nil]
      · have hshorter : rest.length < length := by
          rw [← hlength, List.length_append, Packet.length_bytes]
          omega
        obtain ⟨packets, tail, rfl, hbefore, hends⟩ := ih _ hshorter rest rfl _ hroom
        refine ⟨packet :: packets, tail, ?_, ?_, ?_⟩
        · rw [List.flatMap_cons, List.append_assoc]
        · exact List.forall_mem_cons.mpr ⟨heom, hbefore⟩
        · rw [hcontinue, List.flatMap_cons, ← List.append_assoc]
          exact hends

/-! ### What `send_cmd` returns -/

/-- The line on which the loop of `send_cmd` begins: its frame is sent, and the EC has answered. -/
def EcUart.afterWrite (uart : EcUart) (data : List UInt8) (line : Line UInt8) : Line UInt8 where
  sent := line.sent ++ [data]
  pending := line.pending ++ uart.ec (line.sent ++ [data])

/-- The loop on a line: a bound on its rounds, and the packets it completes before it ends. -/
structure Progresses (line : Line UInt8) : Prop where
  rounds_le : packetBody.rounds Reassembly.empty line ≤ line.pending.length / 8
  ends : ∃ (packets : List Packet) (tail : List UInt8),
    line.pending = packets.flatMap Packet.bytes ++ tail ∧
    (∀ packet ∈ packets, packet.eom = false) ∧
    Ends line.sent (packets.flatMap Packet.payload) tail
      ((packetBody.loop Reassembly.empty).run line)

section

variable (odp : OdpFfa)

/-- These bytes make `send_cmd` return this result on any UART, after any commands before it and
whatever follows them. -/
def Determines (consumed : List UInt8) (result : Except ErrorCode DirectMessagePayload) : Prop :=
  ∀ (uart : EcUart) (data : List UInt8) (line : Line UInt8) (rest : List UInt8),
    (uart.afterWrite data line).pending = consumed ++ rest →
      (sendCmd odp uart data).run line = .done result ⟨line.sent ++ [data], rest⟩

/-- A run that returns has taken the packets up to the first with the EOM flag, and these determine
what it returns. -/
def ReturnsPackets (started : Line UInt8)
    (outcome : Outcome Panic UInt8 (Except ErrorCode DirectMessagePayload)) : Prop :=
  ∀ result line', outcome = .done result line' →
    ∃ (packets : List Packet) (final : Packet),
      started.pending = (packets ++ [final]).flatMap Packet.bytes ++ line'.pending ∧
      (∀ packet ∈ packets, packet.eom = false) ∧ final.eom = true ∧
      Determines odp ((packets ++ [final]).flatMap Packet.bytes) result

theorem progresses (line : Line UInt8) : Progresses line := by
  obtain ⟨sent, stream⟩ := line
  constructor
  · have hrounds := packetBody.mul_rounds_le takes_receivePacket Reassembly.empty ⟨sent, stream⟩
    rw [Nat.le_div_iff_mul_le (by decide), Nat.mul_comm]
    exact hrounds
  · exact loop_ends sent stream [] (Nat.zero_le _)

/-- What `send_cmd` does with the bytes it has received. -/
def collectReceived (out : Reassembly) : Uart (Except ErrorCode DirectMessagePayload) := do
  let received ← Comp.orPanic .outOfRange (Buffer.slice out.outBuf 0 out.outLen)
  let payload ← Comp.orPanic .collect (odp.collect received)
  pure (.ok payload)

/-- What follows the loop runs only once the loop is done, so `send_cmd` waits where its loop waits and
panics where its loop panics; where the loop returns, only the collecting is left. -/
theorem run_sendCmd (uart : EcUart) (data : List UInt8) (line : Line UInt8) :
    (sendCmd odp uart data).run line =
      (packetBody.loop Reassembly.empty >>= collectReceived odp).run (uart.afterWrite data line) :=
  rfl

theorem settled_collectReceived (out : Reassembly) : Comp.Settled (collectReceived odp out) :=
  (Comp.Settled.orPanic _ _).bind fun _ =>
    (Comp.Settled.orPanic _ _).bind fun _ => Comp.Settled.pure _

theorem collectReceived_done {out : Reassembly} {line line' : Line UInt8}
    {result : Except ErrorCode DirectMessagePayload}
    (hdone : (collectReceived odp out).run line = .done result line') : line' = line := by
  unfold collectReceived at hdone
  cases hslice : Buffer.slice out.outBuf 0 out.outLen with
  | none =>
      rw [hslice] at hdone
      cases hdone
  | some received =>
      rw [hslice, Comp.orPanic_some, Comp.pure_bind] at hdone
      cases hcollect : odp.collect received with
      | none =>
          rw [hcollect] at hdone
          cases hdone
      | some payload =>
          rw [hcollect] at hdone
          cases hdone
          rfl

theorem returnsPackets_sendCmd (uart : EcUart) (data : List UInt8) (line : Line UInt8) :
    ReturnsPackets odp (uart.afterWrite data line) ((sendCmd odp uart data).run line) := by
  intro result line' hdone
  have hsettled : Comp.Settled (packetBody.loop Reassembly.empty >>= collectReceived odp) :=
    (packetBody.settled_loop settled_receivePacket _).bind (settled_collectReceived odp)
  rw [run_sendCmd] at hdone
  obtain ⟨taken, htaken, hagain⟩ := hsettled _ _ _ hdone
  obtain ⟨out, middle, hloop, hcollect⟩ := Comp.run_bind_eq_done_iff.mp hdone
  obtain rfl := collectReceived_done odp hcollect
  obtain ⟨packets, tail, hpending, hbefore, hends⟩ := (progresses (uart.afterWrite data line)).ends
  rw [hloop] at hends
  generalize hsent : (uart.afterWrite data line).sent = sent at hends
  cases hends with
  | @returns final rest heom =>
      have hconsumed : (uart.afterWrite data line).pending =
          (packets ++ [final]).flatMap Packet.bytes ++ rest := by
        rw [hpending, List.flatMap_append, List.flatMap_singleton, List.append_assoc]
      have hsame : taken = (packets ++ [final]).flatMap Packet.bytes :=
        List.append_cancel_right (htaken.symm.trans hconsumed)
      refine ⟨packets, final, hconsumed, hbefore, heom, ?_⟩
      intro uart' data' other rest' hother
      rw [run_sendCmd, ← hagain _ rest', hsame, ← hother]
      rfl

end

/-- **The receive loop makes progress and stops on a packet boundary.** By `run_sendCmd`, `send_cmd`
waits or panics with the loop, and it returns nothing but what the packets determine. -/
theorem sendCmd_progress (odp : OdpFfa) (uart : EcUart) (data : List UInt8) (line : Line UInt8) :
    Progresses (uart.afterWrite data line) ∧
      ReturnsPackets odp (uart.afterWrite data line) ((sendCmd odp uart data).run line) :=
  ⟨progresses _, returnsPackets_sendCmd odp uart data line⟩

end OrionO6.Ec

import OrionO6.Ec.Packet

/-!
# Receiving a message

`send_cmd` on a line that begins with a well-formed message: every round takes one packet and adds
its payload to what has been reassembled, so the loop takes the message, nothing more, and leaves
its body in the reassembly buffer.
-/

namespace OrionO6.Ec

open Serial

theorem EcUart.read_of_pending {sent : List (List UInt8)} {before after bytes rest : List UInt8}
    {start stop : Nat} (hstart : before.length = start) (hstop : start + bytes.length = stop)
    (hroom : bytes.length ≤ after.length) :
    (EcUart.read (before ++ after) start stop).run ⟨sent, bytes ++ rest⟩ =
      .done (before ++ bytes ++ after.drop bytes.length) ⟨sent, rest⟩ := by
  have hlength : (after.take bytes.length).length = bytes.length := List.length_take_of_le hroom
  have hslice : Buffer.slice (before ++ after) start stop = some (after.take bytes.length) := by
    have hwindow := Buffer.slice_append before (after.take bytes.length) (after.drop bytes.length)
      hstart (hlength.symm ▸ hstop)
    rwa [List.append_assoc, List.take_append_drop] at hwindow
  rw [EcUart.read, hslice, Comp.orPanic_some, Comp.pure_bind,
    Comp.run_bind_of_done (Comp.receive_of_pending hlength.symm),
    Buffer.store_append _ _ _ hstart hroom, Comp.orPanic_some, Comp.run_pure]

def Reassembly.holding (received : List UInt8) : Reassembly where
  outBuf := received ++ List.replicate (bufsz - received.length) 0
  outLen := received.length

def headerBuffer (packet : Packet) : List UInt8 :=
  packet.bytes.take 4 ++ List.replicate (bufsz - 4) 0

/-- What the second read of a round leaves in the buffer: the packet, then zeros. -/
def packetBuffer (packet : Packet) : List UInt8 :=
  packet.bytes ++ List.replicate (bufsz - 4 - packet.byteCount) 0

/-- The first read of a round, when there are enough bytes for it. -/
theorem read_header {pending : List UInt8} (hheader : 4 ≤ pending.length)
    (sent : List (List UInt8)) :
    (EcUart.read (List.replicate bufsz 0) 0 smbusPacketHeaderBytes).run ⟨sent, pending⟩ =
      .done (pending.take 4 ++ List.replicate (bufsz - 4) 0) ⟨sent, pending.drop 4⟩ := by
  have hlength : (pending.take 4).length = 4 := List.length_take_of_le hheader
  have hread := @EcUart.read_of_pending sent [] (List.replicate bufsz 0) (pending.take 4)
    (pending.drop 4) 0 smbusPacketHeaderBytes rfl (by rw [hlength])
    (by rw [hlength, List.length_replicate]; decide)
  rwa [List.take_append_drop, List.drop_replicate, hlength, List.nil_append,
    List.nil_append] at hread

theorem read_header_of_packet (packet : Packet) (sent : List (List UInt8)) (rest : List UInt8) :
    (EcUart.read (List.replicate bufsz 0) 0 smbusPacketHeaderBytes).run
        ⟨sent, packet.bytes ++ rest⟩ =
      .done (headerBuffer packet) ⟨sent, packet.bytes.drop 4 ++ rest⟩ := by
  apply read_header
  rw [List.length_append, Packet.length_bytes]
  omega

theorem read_body_of_packet (packet : Packet) (sent : List (List UInt8)) (rest : List UInt8) :
    (EcUart.read (headerBuffer packet) smbusPacketHeaderBytes
        (smbusPacketHeaderBytes + packet.byteCount)).run ⟨sent, packet.bytes.drop 4 ++ rest⟩ =
      .done (packetBuffer packet) ⟨sent, rest⟩ := by
  have hcontent := packet.content_le
  have hlength : (packet.bytes.drop 4).length = packet.byteCount := by simp
  have hread := @EcUart.read_of_pending sent (packet.bytes.take 4) (List.replicate (bufsz - 4) 0)
    (packet.bytes.drop 4) rest 4 (4 + packet.byteCount) rfl (by rw [hlength])
    (by rw [hlength, List.length_replicate]; simp only [bufsz, Packet.byteCount]; omega)
  rwa [List.take_append_drop, List.drop_replicate, hlength] at hread

/-- The window a round takes out of its buffer is the packet's payload. A first packet too short for
the ODP header would make the window inverted. -/
theorem slice_packetBuffer {packet : Packet} (hodp : packet.som = true → 9 ≤ packet.byteCount) :
    Buffer.slice (packetBuffer packet)
        (smbusPacketHeaderBytes + mctpPacketHeaderBytes +
          if packet.flags &&& 0x80 ≠ 0 then mctpMessageHeaderBytes + odpMessageHeaderBytes else 0)
        (packet.byteCount + smbusPacketHeaderBytes) = some packet.payload := by
  have hwindow (start : Nat) (hstart : start ≤ packet.byteCount + 4) :
      Buffer.slice (packetBuffer packet) start (packet.byteCount + 4) =
        some (packet.bytes.drop start) := by
    have hbefore : (packet.bytes.take start).length = start := by
      rw [List.length_take, Packet.length_bytes]
      omega
    have hstop : start + (packet.bytes.drop start).length = packet.byteCount + 4 := by
      rw [List.length_drop, Packet.length_bytes]
      omega
    have hslice := Buffer.slice_append (packet.bytes.take start) (packet.bytes.drop start)
      (List.replicate (bufsz - 4 - packet.byteCount) 0) hbefore hstop
    rwa [List.take_append_drop] at hslice
  have hcount : 4 ≤ packet.byteCount := Nat.le_add_right _ _
  rw [Packet.payload_eq_drop_bytes]
  by_cases hflag : packet.flags &&& 0x80 ≠ 0
  · have hsom : packet.som = true := decide_eq_true hflag
    have hlong := hodp hsom
    rw [if_pos hflag, if_pos hsom]
    exact hwindow 13 (by omega)
  · have hsom : ¬ packet.som = true := by simpa [Packet.som] using hflag
    rw [if_neg hflag, if_neg hsom]
    exact hwindow 8 (by omega)

theorem slice_packetBuffer_none {packet : Packet}
    (hshort : ¬ (packet.som = true → 9 ≤ packet.byteCount)) :
    Buffer.slice (packetBuffer packet)
        (smbusPacketHeaderBytes + mctpPacketHeaderBytes +
          if packet.flags &&& 0x80 ≠ 0 then mctpMessageHeaderBytes + odpMessageHeaderBytes else 0)
        (packet.byteCount + smbusPacketHeaderBytes) = none := by
  rw [Classical.not_imp] at hshort
  obtain ⟨hsom, hcount⟩ := hshort
  rw [if_pos (of_decide_eq_true hsom), Buffer.slice, if_neg]
  simp only [smbusPacketHeaderBytes, mctpPacketHeaderBytes, mctpMessageHeaderBytes,
    odpMessageHeaderBytes]
  omega

theorem receivePacket_run_packet (out : Reassembly) (packet : Packet) (sent : List (List UInt8))
    (rest : List UInt8) :
    (receivePacket out).run ⟨sent, packet.bytes ++ rest⟩ =
      (do
        let outSlice ← Comp.orPanic .outOfRange
          (Buffer.slice (packetBuffer packet)
            (smbusPacketHeaderBytes + mctpPacketHeaderBytes +
              if packet.flags &&& 0x80 ≠ 0 then
                mctpMessageHeaderBytes + odpMessageHeaderBytes
              else
                0)
            (packet.byteCount + smbusPacketHeaderBytes))
        let outBuf ← Comp.orPanic .outOfRange (Buffer.store out.outBuf out.outLen outSlice)
        pure ({ outBuf, outLen := out.outLen + outSlice.length }, packet.eom) :
          Uart (Reassembly × Bool)).run ⟨sent, rest⟩ := by
  have hcontent := packet.content_le
  have hlen : ((headerBuffer packet).getD 2 0).toNat = packet.byteCount :=
    packet.toNat_byteCount
  have hbounds : mctpPacketHeaderBytes ≤ packet.byteCount ∧
      packet.byteCount ≤ maxMctpPacketLen := by
    simp only [Packet.byteCount, mctpPacketHeaderBytes, maxMctpPacketLen]
    omega
  have hflags : (packetBuffer packet).getD 7 0 = packet.flags := rfl
  rw [receivePacket, Comp.run_bind_of_done (read_header_of_packet packet sent rest)]
  dsimp only
  rw [hlen, if_pos hbounds, Comp.run_bind_of_done (read_body_of_packet packet sent rest), hflags]
  rfl

/-- A round may take a packet that has room for the headers it must carry and whose payload fits
what is left of the reassembly buffer. -/
def RoundAccepts (received : List UInt8) (packet : Packet) : Prop :=
  (packet.som = true → 9 ≤ packet.byteCount) ∧ received.length + packet.payload.length ≤ bufsz

/-- **One round takes one packet.** -/
theorem round_of_accepts (received : List UInt8) (packet : Packet) (sent : List (List UInt8))
    (rest : List UInt8) (haccept : RoundAccepts received packet) :
    (packetBody.round (Reassembly.holding received)).run ⟨sent, packet.bytes ++ rest⟩ =
      .done (Reassembly.holding (received ++ packet.payload), packet.eom) ⟨sent, rest⟩ := by
  obtain ⟨hodp, hfits⟩ := haccept
  have hstore : Buffer.store (Reassembly.holding received).outBuf
        (Reassembly.holding received).outLen packet.payload =
      some (Reassembly.holding (received ++ packet.payload)).outBuf := by
    have hroom : packet.payload.length ≤
        (List.replicate (bufsz - received.length) (0 : UInt8)).length := by
      rw [List.length_replicate]
      omega
    rw [Reassembly.holding, Buffer.store_append _ _ _ rfl hroom, List.drop_replicate]
    simp only [Reassembly.holding, List.length_append, Nat.sub_sub]
  change (receivePacket _).run _ = _
  rw [receivePacket_run_packet, slice_packetBuffer hodp, Comp.orPanic_some, Comp.pure_bind, hstore,
    Comp.orPanic_some, Comp.pure_bind, Comp.run_pure]
  simp only [Reassembly.holding, List.length_append]

theorem round_of_not_accepts (received : List UInt8) (packet : Packet) (sent : List (List UInt8))
    (rest : List UInt8) (hreceived : received.length ≤ bufsz)
    (hreject : ¬ RoundAccepts received packet) :
    (packetBody.round (Reassembly.holding received)).run ⟨sent, packet.bytes ++ rest⟩ =
      .panicked .outOfRange ⟨sent, rest⟩ := by
  change (receivePacket _).run _ = _
  rw [receivePacket_run_packet]
  by_cases hodp : packet.som = true → 9 ≤ packet.byteCount
  · have hstore : Buffer.store (Reassembly.holding received).outBuf
        (Reassembly.holding received).outLen packet.payload = none := by
      have hover : bufsz < received.length + packet.payload.length :=
        Nat.lt_of_not_le fun hfits => hreject ⟨hodp, hfits⟩
      rw [Buffer.store, if_neg]
      simp only [Reassembly.holding, List.length_append, List.length_replicate]
      omega
    rw [slice_packetBuffer hodp, Comp.orPanic_some, Comp.pure_bind, hstore, Comp.orPanic_none,
      Comp.panic_bind, Comp.run_panic]
  · rw [slice_packetBuffer_none hodp, Comp.orPanic_none, Comp.panic_bind, Comp.run_panic]

theorem accepts_of_fits {packets : List Packet}
    (hodp : ∀ packet ∈ packets, packet.som = true → 9 ≤ packet.byteCount) :
    ∀ received : List UInt8,
      received.length + (packets.flatMap Packet.payload).length ≤ bufsz →
      Body.Accepts RoundAccepts (fun received packet => received ++ packet.payload) received
        packets := by
  induction packets with
  | nil => exact fun _ _ => trivial
  | cons packet packets ih =>
      intro received hfits
      simp only [List.flatMap_cons, List.length_append] at hfits
      refine ⟨⟨hodp packet (by simp), by omega⟩, ?_⟩
      refine ih (fun later hlater => hodp later (List.mem_cons_of_mem _ hlater)) _ ?_
      rw [List.length_append]
      omega

theorem foldl_append_payload (packets : List Packet) (received : List UInt8) :
    packets.foldl (fun received packet => received ++ packet.payload) received =
      received ++ packets.flatMap Packet.payload := by
  induction packets generalizing received with
  | nil => simp
  | cons packet packets ih => rw [List.foldl_cons, ih, List.flatMap_cons, List.append_assoc]

theorem Message.odp_of_mem (message : Message) :
    ∀ packet ∈ message.packets, packet.som = true → 9 ≤ packet.byteCount := by
  intro packet hpacket hsom
  rcases List.mem_cons.mp hpacket with hfirst | hlater
  · exact hfirst ▸ message.odp_first
  · rw [message.som_later packet hlater] at hsom
    cases hsom

/-- **The loop takes a closed run of packets**, if it accepts them. -/
theorem loop_of_closed {packets : List Packet} (sent : List (List UInt8)) (rest : List UInt8)
    (hclosed : Closed packets) (hodp : ∀ packet ∈ packets, packet.som = true → 9 ≤ packet.byteCount)
    (hfits : (packets.flatMap Packet.payload).length ≤ bufsz) :
    (packetBody.loop Reassembly.empty).run ⟨sent, packets.flatMap Packet.bytes ++ rest⟩ =
      .done (Reassembly.holding (packets.flatMap Packet.payload)) ⟨sent, rest⟩ := by
  have haccepts := accepts_of_fits hodp [] (by rwa [List.length_nil, Nat.zero_add])
  obtain ⟨before, last, rfl, hbefore, hlast⟩ := hclosed
  have hloop := packetBody.loop_of_chunks round_of_accepts sent rest hlast before [] hbefore haccepts
  rw [foldl_append_payload, List.nil_append] at hloop
  exact hloop

theorem loop_of_message (message : Message) (sent : List (List UInt8)) (rest : List UInt8)
    (hfits : message.body.length ≤ bufsz) :
    (packetBody.loop Reassembly.empty).run ⟨sent, message.bytes ++ rest⟩ =
      .done (Reassembly.holding message.body) ⟨sent, rest⟩ := by
  rw [message.body_eq_flatMap_payload] at hfits ⊢
  exact loop_of_closed sent rest message.closed_packets message.odp_of_mem hfits

/-- A loop that returns on a line of whole packets has taken its closed front. -/
theorem exists_closed_of_loop_done {sent : List (List UInt8)} {out : Reassembly}
    {line : Line UInt8} :
    ∀ (packets : List Packet) (received : List UInt8), received.length ≤ bufsz →
      (packetBody.loop (Reassembly.holding received)).run ⟨sent, packets.flatMap Packet.bytes⟩ =
        .done out line →
      ∃ taken rest, packets = taken ++ rest ∧ Closed taken ∧
        out = Reassembly.holding (received ++ taken.flatMap Packet.payload) ∧
        line = ⟨sent, rest.flatMap Packet.bytes⟩ := by
  intro packets
  induction packets with
  | nil =>
      intro received _ hloop
      obtain ⟨value, middle, hround⟩ := packetBody.round_done_of_loop_done hloop
      have htakes := takes_receivePacket _ _ _ _ hround
      simp only [List.flatMap_nil, List.length_nil] at htakes
      omega
  | cons packet packets ih =>
      intro received hreceived hloop
      rw [List.flatMap_cons] at hloop
      by_cases haccept : RoundAccepts received packet
      · have hround := round_of_accepts received packet sent (packets.flatMap Packet.bytes) haccept
        cases heom : packet.eom with
        | true =>
            rw [heom] at hround
            rw [packetBody.loop_of_stop hround] at hloop
            cases hloop
            refine ⟨[packet], packets, rfl, .singleton heom, ?_, rfl⟩
            rw [List.flatMap_singleton]
        | false =>
            rw [heom] at hround
            rw [packetBody.loop_of_continue hround] at hloop
            have hroom : (received ++ packet.payload).length ≤ bufsz := by
              rw [List.length_append]
              exact haccept.2
            obtain ⟨taken, rest, rfl, hclosed, hout, hline⟩ := ih _ hroom hloop
            refine ⟨packet :: taken, rest, rfl, hclosed.cons heom, ?_, hline⟩
            rw [hout, List.flatMap_cons, List.append_assoc]
      · rw [packetBody.loop_of_panicked
          (round_of_not_accepts received packet sent _ hreceived haccept)] at hloop
        cases hloop

theorem loop_panicked_of_overflow (sent : List (List UInt8)) (rest : List UInt8) :
    ∀ (packets : List Packet) (received : List UInt8), received.length ≤ bufsz →
      (∀ packet ∈ packets.dropLast, packet.eom = false) →
      bufsz < received.length + (packets.flatMap Packet.payload).length →
      ∃ line', (packetBody.loop (Reassembly.holding received)).run
        ⟨sent, packets.flatMap Packet.bytes ++ rest⟩ = .panicked .outOfRange line' := by
  intro packets
  induction packets with
  | nil =>
      intro received hreceived _ hlong
      rw [List.flatMap_nil, List.length_nil] at hlong
      omega
  | cons packet packets ih =>
      intro received hreceived hbefore hlong
      rw [List.flatMap_cons, List.append_assoc]
      by_cases haccept : RoundAccepts received packet
      · have hround := round_of_accepts received packet sent
          (packets.flatMap Packet.bytes ++ rest) haccept
        rw [List.flatMap_cons, List.length_append, ← Nat.add_assoc, ← List.length_append] at hlong
        have hroom : (received ++ packet.payload).length ≤ bufsz := by
          rw [List.length_append]
          exact haccept.2
        -- the last packet of a list that overflows cannot be one that still fits
        have hnonempty : packets ≠ [] := by
          rintro rfl
          rw [List.flatMap_nil, List.length_nil] at hlong
          omega
        rw [List.dropLast_cons_of_ne_nil hnonempty, List.forall_mem_cons] at hbefore
        rw [hbefore.1] at hround
        rw [packetBody.loop_of_continue hround]
        exact ih _ hroom hbefore.2 hlong
      · exact ⟨_, packetBody.loop_of_panicked
          (round_of_not_accepts received packet sent _ hreceived haccept)⟩

/-- A message that does not fit the reassembly buffer ends the loop with a panic. -/
theorem loop_of_long_message (message : Message) (sent : List (List UInt8)) (rest : List UInt8)
    (hlong : bufsz < message.body.length) :
    ∃ line', (packetBody.loop Reassembly.empty).run ⟨sent, message.bytes ++ rest⟩ =
      .panicked .outOfRange line' := by
  apply loop_panicked_of_overflow sent rest message.packets [] (Nat.zero_le _) message.eom_before
  rwa [← message.body_eq_flatMap_payload, List.length_nil, Nat.zero_add]

theorem fits_of_loop_done {message : Message} {sent : List (List UInt8)} {rest : List UInt8}
    {out : Reassembly} {line : Line UInt8}
    (hloop : (packetBody.loop Reassembly.empty).run ⟨sent, message.bytes ++ rest⟩ =
      .done out line) :
    message.body.length ≤ bufsz := by
  by_contra hlong
  obtain ⟨line', hpanic⟩ := loop_of_long_message message sent rest (Nat.lt_of_not_le hlong)
  rw [hpanic] at hloop
  cases hloop

theorem EcUart.sends_read (buffer : List UInt8) (start stop : Nat) :
    Comp.Sends [] (EcUart.read buffer start stop) :=
  (Comp.Sends.orPanic _ _).bind fun window =>
    (Comp.Sends.receive window.length).bind fun _ => Comp.Sends.orPanic _ _

theorem sends_receivePacket (out : Reassembly) : Comp.Sends [] (receivePacket out) := by
  apply (EcUart.sends_read _ _ _).bind
  intro buffer
  dsimp only
  split
  · apply (EcUart.sends_read _ _ _).bind
    intro buffer
    apply (Comp.Sends.orPanic _ _).bind
    intro outSlice
    exact (Comp.Sends.orPanic _ _).bind fun outBuf => Comp.Sends.pure _
  · exact Comp.Sends.panic _

section

variable (odp : OdpFfa)

/-- `send_cmd` transmits its frame and nothing else, whichever way it ends. -/
theorem sends_sendCmd (uart : EcUart) (data : List UInt8) :
    Comp.Sends [data] (sendCmd odp uart data) := by
  apply (Comp.Sends.send uart.ec data).bind
  intro _
  apply (packetBody.sends_loop sends_receivePacket _).bind
  intro out
  apply (Comp.Sends.orPanic _ _).bind
  intro received
  exact (Comp.Sends.orPanic _ _).bind fun payload => Comp.Sends.pure _

theorem sendCmd_of_short_packets {uart : EcUart} {data : List UInt8} {line : Line UInt8}
    {packets : List Packet} {rest : List UInt8}
    (hpending : line.pending ++ uart.ec (line.sent ++ [data]) =
      packets.flatMap Packet.bytes ++ rest)
    (hclosed : Closed packets) (hodp : ∀ packet ∈ packets, packet.som = true → 9 ≤ packet.byteCount)
    (hshort : (packets.flatMap Packet.payload).length ≤ maxMessageSizeBytes) :
    (sendCmd odp uart data).run line =
      .done (.ok (DirectMessagePayload.ofBytes (packets.flatMap Packet.payload)))
        ⟨line.sent ++ [data], rest⟩ := by
  have hwrite : (uart.write data).run line =
      .done () ⟨line.sent ++ [data], packets.flatMap Packet.bytes ++ rest⟩ := by
    rw [← hpending]
    rfl
  have hslice : Buffer.slice (Reassembly.holding (packets.flatMap Packet.payload)).outBuf 0
      (Reassembly.holding (packets.flatMap Packet.payload)).outLen =
        some (packets.flatMap Packet.payload) :=
    Buffer.slice_append [] _ _ rfl (Nat.zero_add _)
  have hloop := loop_of_closed (line.sent ++ [data]) rest hclosed hodp
    (Nat.le_trans hshort (by decide))
  rw [sendCmd, Comp.run_bind_of_done hwrite, Comp.run_bind_of_done hloop, hslice, Comp.orPanic_some,
    Comp.pure_bind, odp.collect_of_le _ hshort, Comp.orPanic_some, Comp.pure_bind, Comp.run_pure]

theorem sendCmd_of_short_message {uart : EcUart} {data : List UInt8} {line : Line UInt8}
    {message : Message} {rest : List UInt8}
    (hpending : line.pending ++ uart.ec (line.sent ++ [data]) = message.bytes ++ rest)
    (hshort : message.body.length ≤ maxMessageSizeBytes) :
    (sendCmd odp uart data).run line =
      .done (.ok (DirectMessagePayload.ofBytes message.body)) ⟨line.sent ++ [data], rest⟩ := by
  rw [message.body_eq_flatMap_payload] at hshort ⊢
  exact sendCmd_of_short_packets odp hpending message.closed_packets message.odp_of_mem hshort

/-- On a line of whole packets `send_cmd` returns nothing but the collected payloads of the closed
front, and only after taking that front and nothing more. -/
theorem exists_closed_of_sendCmd_done {uart : EcUart} {data : List UInt8} {line line' : Line UInt8}
    {packets : List Packet} {result : Except ErrorCode DirectMessagePayload}
    (hpending : line.pending ++ uart.ec (line.sent ++ [data]) = packets.flatMap Packet.bytes)
    (hdone : (sendCmd odp uart data).run line = .done result line') :
    ∃ taken rest payload, packets = taken ++ rest ∧ Closed taken ∧
      odp.collect (taken.flatMap Packet.payload) = some payload ∧ result = .ok payload ∧
      line' = ⟨line.sent ++ [data], rest.flatMap Packet.bytes⟩ := by
  have hwrite : (uart.write data).run line =
      .done () ⟨line.sent ++ [data], packets.flatMap Packet.bytes⟩ := by
    rw [← hpending]
    rfl
  rw [sendCmd, Comp.run_bind_of_done hwrite, Comp.run_bind_eq_done_iff] at hdone
  obtain ⟨out, received, hloop, hcollected⟩ := hdone
  obtain ⟨taken, rest, hpackets, hclosed, rfl, rfl⟩ :=
    exists_closed_of_loop_done packets [] (Nat.zero_le _) hloop
  have hslice : Buffer.slice (Reassembly.holding ([] ++ taken.flatMap Packet.payload)).outBuf 0
      (Reassembly.holding ([] ++ taken.flatMap Packet.payload)).outLen =
        some (taken.flatMap Packet.payload) :=
    Buffer.slice_append [] _ _ rfl (Nat.zero_add _)
  rw [hslice, Comp.orPanic_some, Comp.pure_bind] at hcollected
  cases hcollect : odp.collect (taken.flatMap Packet.payload) with
  | none =>
      rw [hcollect] at hcollected
      cases hcollected
  | some payload =>
      rw [hcollect] at hcollected
      cases hcollected
      exact ⟨taken, rest, payload, hpackets, hclosed, hcollect, rfl, rfl⟩

end

end OrionO6.Ec

import OrionO6.Ec.Receive

/-!
# Unpacking one packet

The length check of `send_cmd` bounds a packet's byte count without looking at its flags, while the
payload starts five bytes later when SOM is set. A round that begins anywhere in any stream either
waits, rejects the byte count, or takes a whole packet, and the last is where it may abort.
-/

namespace OrionO6.Ec

open Serial

/-- The payload range of `send_cmd`, as it computes it from the flags and the byte count. -/
def Packet.payloadStart (packet : Packet) : Nat :=
  smbusPacketHeaderBytes + mctpPacketHeaderBytes +
    if packet.flags &&& 0x80 ≠ 0 then mctpMessageHeaderBytes + odpMessageHeaderBytes else 0

def Packet.payloadStop (packet : Packet) : Nat := packet.byteCount + smbusPacketHeaderBytes

/-- The range is one of the packet buffer exactly when SOM packets have room for the ODP header. -/
theorem Packet.payloadRange_iff (packet : Packet) :
    packet.payloadStart ≤ packet.payloadStop ∧ packet.payloadStop ≤ bufsz ↔
      (packet.som = true → 9 ≤ packet.byteCount) := by
  have hcontent := packet.content_le
  have hcount : packet.byteCount = 4 + packet.content.length := rfl
  simp only [payloadStart, payloadStop, smbusPacketHeaderBytes, mctpPacketHeaderBytes,
    mctpMessageHeaderBytes, odpMessageHeaderBytes, bufsz]
  by_cases hflag : packet.flags &&& 0x80 ≠ 0
  · have hsom : packet.som = true := decide_eq_true hflag
    have hodp : (packet.som = true → 9 ≤ packet.byteCount) ↔ 9 ≤ packet.byteCount :=
      ⟨fun hodp => hodp hsom, fun hlong _ => hlong⟩
    rw [if_pos hflag, hodp]
    omega
  · have hsom : ¬ packet.som = true := by simpa [Packet.som] using hflag
    rw [if_neg hflag]
    exact iff_of_true (by omega) fun hset => absurd hset hsom

theorem Packet.length_payload_le (packet : Packet) : packet.payload.length ≤ 65 := by
  have hcontent := packet.content_le
  unfold payload
  split
  · rw [List.length_drop]
    omega
  · exact hcontent

theorem Packet.byteCount_eq (packet : Packet) (rest : List UInt8) :
    packet.byteCount = ((packet.bytes ++ rest).getD 2 0).toNat :=
  packet.toNat_byteCount.symm

theorem EcUart.read_of_short {buffer pending : List UInt8} {start stop : Nat}
    (hbounds : start ≤ stop ∧ stop ≤ buffer.length) (sent : List (List UInt8))
    (hshort : pending.length < stop - start) :
    (EcUart.read buffer start stop).run ⟨sent, pending⟩ = .blocked ⟨sent, []⟩ := by
  have hslice : Buffer.slice buffer start stop = some ((buffer.drop start).take (stop - start)) :=
    if_pos hbounds
  have hwindow := Buffer.length_of_slice hslice
  rw [EcUart.read, hslice, Comp.orPanic_some, Comp.pure_bind,
    Comp.run_bind_of_blocked (Comp.receive_of_short (by rwa [hwindow]))]

section

variable (out : Reassembly) (sent : List (List UInt8)) {pending : List UInt8}

theorem receivePacket_of_short_header (hshort : pending.length < 4) :
    (receivePacket out).run ⟨sent, pending⟩ = .blocked ⟨sent, []⟩ := by
  have hbounds : 0 ≤ smbusPacketHeaderBytes ∧
      smbusPacketHeaderBytes ≤ (List.replicate bufsz (0 : UInt8)).length := by
    rw [List.length_replicate]
    decide
  exact Comp.run_bind_of_blocked (EcUart.read_of_short hbounds sent hshort)

variable {count : UInt8}

/-- The byte count that a round finds in what it has read so far. -/
theorem getD_header (hheader : 4 ≤ pending.length) (hcount : pending[2]? = some count) :
    (pending.take 4 ++ List.replicate (bufsz - 4) (0 : UInt8)).getD 2 0 = count := by
  have hlength : (pending.take 4).length = 4 := List.length_take_of_le hheader
  rw [List.getD_eq_getElem?_getD, List.getElem?_append_left (by omega),
    List.getElem?_take_of_lt (by decide), hcount, Option.getD_some]

theorem receivePacket_of_length_rejected (hheader : 4 ≤ pending.length)
    (hcount : pending[2]? = some count)
    (hlength : ¬ (mctpPacketHeaderBytes ≤ count.toNat ∧ count.toNat ≤ maxMctpPacketLen)) :
    (receivePacket out).run ⟨sent, pending⟩ =
      .panicked (.invalidMctpPacketLength count.toNat) ⟨sent, pending.drop 4⟩ := by
  rw [receivePacket, Comp.run_bind_of_done (read_header hheader sent)]
  dsimp only
  rw [getD_header hheader hcount, if_neg hlength, Comp.run_panic]

theorem receivePacket_of_short_body (hheader : 4 ≤ pending.length)
    (hcount : pending[2]? = some count)
    (hlength : mctpPacketHeaderBytes ≤ count.toNat ∧ count.toNat ≤ maxMctpPacketLen)
    (hshort : pending.length < 4 + count.toNat) :
    (receivePacket out).run ⟨sent, pending⟩ = .blocked ⟨sent, []⟩ := by
  have hbody : (pending.drop 4).length <
      smbusPacketHeaderBytes + count.toNat - smbusPacketHeaderBytes := by
    rw [List.length_drop, Nat.add_sub_cancel_left]
    omega
  have hwindow : smbusPacketHeaderBytes + count.toNat ≤
      (pending.take 4 ++ List.replicate (bufsz - 4) (0 : UInt8)).length := by
    have hhigh := hlength.2
    rw [List.length_append, List.length_take_of_le hheader, List.length_replicate]
    simp only [smbusPacketHeaderBytes, bufsz, maxMctpPacketLen] at hhigh ⊢
    omega
  rw [receivePacket, Comp.run_bind_of_done (read_header hheader sent)]
  dsimp only
  rw [getD_header hheader hcount, if_pos hlength]
  exact Comp.run_bind_of_blocked
    (EcUart.read_of_short ⟨Nat.le_add_right _ _, hwindow⟩ sent hbody)

end

theorem exists_packet_of_body {pending : List UInt8} {count : UInt8}
    (hcount : pending[2]? = some count)
    (hlength : mctpPacketHeaderBytes ≤ count.toNat ∧ count.toNat ≤ maxMctpPacketLen)
    (hbody : 4 + count.toNat ≤ pending.length) :
    ∃ (packet : Packet) (rest : List UInt8), pending = packet.bytes ++ rest := by
  have hraw : (pending.take (4 + count.toNat)).length = 4 + count.toNat :=
    List.length_take_of_le hbody
  obtain ⟨packet, hbytes, -⟩ := Packet.exists_bytes_eq
    (by rw [List.getElem?_take_of_lt (by omega), hcount]) hlength.1 hlength.2 hraw
  refine ⟨packet, pending.drop (4 + count.toNat), ?_⟩
  rw [hbytes, List.take_append_drop]

/-- **The three ways a round begins.** It waits for the rest of a packet, rejects a byte count, or
finds a whole packet with an accepted byte count on the line. -/
theorem receivePacket_cases (out : Reassembly) (line : Line UInt8) :
    (∃ line', (receivePacket out).run line = .blocked line') ∨
      (∃ len line', (receivePacket out).run line = .panicked (.invalidMctpPacketLength len) line') ∨
        ∃ (packet : Packet) (rest : List UInt8), line.pending = packet.bytes ++ rest := by
  obtain ⟨sent, pending⟩ := line
  rcases Nat.lt_or_ge pending.length 4 with hshort | hheader
  · exact Or.inl ⟨_, receivePacket_of_short_header out sent hshort⟩
  obtain ⟨count, hcount⟩ : ∃ count, pending[2]? = some count :=
    ⟨_, List.getElem?_eq_getElem (by omega)⟩
  by_cases hlength : mctpPacketHeaderBytes ≤ count.toNat ∧ count.toNat ≤ maxMctpPacketLen
  · rcases Nat.lt_or_ge pending.length (4 + count.toNat) with hshort | hbody
    · exact Or.inl ⟨_, receivePacket_of_short_body out sent hheader hcount hlength hshort⟩
    · exact Or.inr (Or.inr (exists_packet_of_body hcount hlength hbody))
  · exact Or.inr (Or.inl ⟨_, _, receivePacket_of_length_rejected out sent hheader hcount hlength⟩)

/-! ### Rounds anywhere in a stream -/

theorem round_packetBody : packetBody.round = receivePacket := rfl

theorem accepts_of_round_done {received : List UInt8} (hreceived : received.length ≤ bufsz)
    {line line' : Line UInt8} {value : Reassembly × Bool}
    (hround : (packetBody.round (Reassembly.holding received)).run line = .done value line') :
    ∃ packet, RoundAccepts received packet ∧
      value = (Reassembly.holding (received ++ packet.payload), packet.eom) := by
  rcases receivePacket_cases (Reassembly.holding received) line with
    ⟨_, hblocked⟩ | ⟨_, _, hpanicked⟩ | ⟨packet, rest, hpending⟩
  · rw [round_packetBody, hblocked] at hround
    cases hround
  · rw [round_packetBody, hpanicked] at hround
    cases hround
  · obtain ⟨sent, pending⟩ := line
    obtain rfl : pending = packet.bytes ++ rest := hpending
    by_cases haccept : RoundAccepts received packet
    · rw [round_of_accepts received packet sent rest haccept] at hround
      cases hround
      exact ⟨packet, haccept, rfl⟩
    · rw [round_of_not_accepts received packet sent rest hreceived haccept] at hround
      cases hround

/-- Wherever a round begins, the reassembly buffer holds what the rounds before it unpacked. -/
theorem holding_of_reached {line₀ line : Line UInt8} {out : Reassembly}
    (hreached : packetBody.Reached Reassembly.empty line₀ out line) :
    ∃ received, received.length ≤ bufsz ∧ out = Reassembly.holding received := by
  apply packetBody.invariant_of_reached
    (fun out => ∃ received, received.length ≤ bufsz ∧ out = Reassembly.holding received) _ _
    hreached
  · exact ⟨[], Nat.zero_le _, rfl⟩
  · rintro _ line out' line' ⟨received, hreceived, rfl⟩ hround
    obtain ⟨packet, ⟨_, hroom⟩, hvalue⟩ := accepts_of_round_done hreceived hround
    exact ⟨_, by rwa [List.length_append], congrArg Prod.fst hvalue⟩

/-- A packet that cannot be unpacked, wherever the loop meets it, ends the loop with a panic. -/
theorem loop_panicked_of_reached {line₀ : Line UInt8} {out : Reassembly}
    {sent : List (List UInt8)} {packet : Packet} {rest : List UInt8}
    (hreached : packetBody.Reached Reassembly.empty line₀ out ⟨sent, packet.bytes ++ rest⟩)
    (hreject : ¬ ((packet.som = true → 9 ≤ packet.byteCount) ∧
      out.outLen + packet.payload.length ≤ bufsz)) :
    (packetBody.loop Reassembly.empty).run line₀ = .panicked .outOfRange ⟨sent, rest⟩ := by
  obtain ⟨received, hreceived, rfl⟩ := holding_of_reached hreached
  rw [packetBody.loop_eq_of_reached hreached]
  exact packetBody.loop_of_panicked
    (round_of_not_accepts received packet sent rest hreceived hreject)

theorem sendCmd_panicked_of_loop (odp : OdpFfa) {uart : EcUart} {data : List UInt8}
    {line line' : Line UInt8} {reason : Panic}
    (hloop : (packetBody.loop Reassembly.empty).run
        ⟨line.sent ++ [data], line.pending ++ uart.ec (line.sent ++ [data])⟩ =
      .panicked reason line') :
    (sendCmd odp uart data).run line = .panicked reason line' := by
  have hwrite : (uart.write data).run line =
      .done () ⟨line.sent ++ [data], line.pending ++ uart.ec (line.sent ++ [data])⟩ := rfl
  rw [sendCmd, Comp.run_bind_of_done hwrite]
  exact Comp.run_bind_of_panicked hloop

/-- What is asked of a round: whichever accepted packet it finds, the payload range is one of the
packet buffer, and the only abort is the explicit one on the byte count. -/
structure Unpacks (out : Reassembly) (line : Line UInt8) : Prop where
  payloadRange : ∀ (packet : Packet) (rest : List UInt8), line.pending = packet.bytes ++ rest →
    packet.payloadStart ≤ packet.payloadStop ∧ packet.payloadStop ≤ bufsz
  onlyLength : ∀ reason line', (receivePacket out).run line = .panicked reason line' →
    ∃ len, reason = .invalidMctpPacketLength len

/-- **When the next packet can be unpacked**, wherever in whatever stream a round begins. -/
theorem unpacks_iff {line₀ line : Line UInt8} {out : Reassembly}
    (hreached : packetBody.Reached Reassembly.empty line₀ out line) :
    Unpacks out line ↔
      ∀ (packet : Packet) (rest : List UInt8), line.pending = packet.bytes ++ rest →
        (packet.som = true → 9 ≤ packet.byteCount) ∧
          out.outLen + packet.payload.length ≤ bufsz := by
  obtain ⟨received, hreceived, rfl⟩ := holding_of_reached hreached
  constructor
  · intro hunpacks packet rest hpending
    by_contra hreject
    obtain ⟨sent, pending⟩ := line
    obtain rfl : pending = packet.bytes ++ rest := hpending
    have hpanic := round_of_not_accepts received packet sent rest hreceived hreject
    rw [round_packetBody] at hpanic
    obtain ⟨len, hlen⟩ := hunpacks.onlyLength _ _ hpanic
    cases hlen
  · intro haccepts
    refine ⟨?_, ?_⟩
    · intro packet rest hpending
      exact packet.payloadRange_iff.mpr (haccepts packet rest hpending).1
    · intro reason line' hpanic
      rcases receivePacket_cases (Reassembly.holding received) line with
        ⟨_, hblocked⟩ | ⟨len, _, hpanicked⟩ | ⟨packet, rest, hpending⟩
      · rw [hblocked] at hpanic
        cases hpanic
      · rw [hpanicked] at hpanic
        cases hpanic
        exact ⟨len, rfl⟩
      · have haccept := haccepts packet rest hpending
        obtain ⟨sent, pending⟩ := line
        obtain rfl : pending = packet.bytes ++ rest := hpending
        rw [← round_packetBody, round_of_accepts received packet sent rest haccept] at hpanic
        cases hpanic

def emptyAnswer : Packet where
  destination := 0x2
  command := 0xF
  source := 0x1
  headerVersion := 0x1
  destinationEid := socMctpEntityId
  sourceEid := 8
  flags := 0xC0
  content := [0x7D, 0, 8, 0, 1]
  content_le := by decide

theorem unpacks_emptyAnswer : Unpacks Reassembly.empty ⟨[], emptyAnswer.bytes⟩ := by
  apply (unpacks_iff Body.Reached.start).mpr
  intro packet rest hpending
  have hcount : packet.byteCount = 9 := by
    rw [packet.byteCount_eq rest, ← hpending]
    rfl
  have hpayload := packet.length_payload_le
  refine ⟨fun _ => by omega, ?_⟩
  simp only [Reassembly.empty, bufsz]
  omega

/-- A message that ends right after its MCTP header. -/
def bareStart : Packet := { emptyAnswer with content := [], content_le := Nat.zero_le _ }

/-- The byte count 4 passes the check, and the payload range runs from 13 to 8. -/
theorem bareStart_panics :
    mctpPacketHeaderBytes ≤ bareStart.byteCount ∧ bareStart.byteCount ≤ maxMctpPacketLen ∧
      packetBody.Reached Reassembly.empty ⟨[[]], bareStart.bytes⟩ Reassembly.empty
        ⟨[[]], bareStart.bytes⟩ ∧
      ¬ Unpacks Reassembly.empty ⟨[[]], bareStart.bytes⟩ ∧
      (sendCmd OdpFfa.strict { ec := fun _ => bareStart.bytes } []).run ⟨[], []⟩ =
        .panicked .outOfRange ⟨[[]], []⟩ := by
  have hshort : ¬ (bareStart.som = true → 9 ≤ bareStart.byteCount) := by decide
  refine ⟨by decide, by decide, Body.Reached.start, ?_, ?_⟩
  · intro hunpacks
    exact hshort (bareStart.payloadRange_iff.mp (hunpacks.payloadRange bareStart [] rfl))
  · have hreached : packetBody.Reached Reassembly.empty ⟨[[]], bareStart.bytes ++ []⟩
        Reassembly.empty ⟨[[]], bareStart.bytes ++ []⟩ := Body.Reached.start
    apply sendCmd_panicked_of_loop
    exact loop_panicked_of_reached hreached fun haccept => hshort haccept.1

end OrionO6.Ec

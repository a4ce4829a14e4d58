import OrionO6.Ec.Unpacking
import OrionO6.Ec.Session

/-!
# Replies of any length

A reply may be split into any number of packets, each of them valid, and two buffers of fixed size
receive its body: the reassembly buffer of 256 bytes, then the register payload of 112. Nothing in
`send_cmd` compares the length with either, and nothing in it returns an error.
-/

namespace OrionO6.Ec

open Serial

/-! ### What is asked of a reply -/

/-- The bytes `send_cmd` collects into a register payload after it has transmitted a frame. -/
def Collected (uart : EcUart) (frame : List UInt8) (line : Line UInt8) (bytes : List UInt8) : Prop :=
  ∃ out line', (packetBody.loop Reassembly.empty).run
      ⟨line.sent ++ [frame], line.pending ++ uart.ec (line.sent ++ [frame])⟩ = .done out line' ∧
    Buffer.slice out.outBuf 0 out.outLen = some bytes

def Whole (msg : MsgSendDirectReq2) (body : List UInt8)
    (response : Except ErrorCode MsgSendDirectResp2) : Prop :=
  ∃ payload, response = .ok { request := msg, payload } ∧ payload.bytes.take body.length = body

/-- An error, or the payload `handle_message` has for a failed `send_cmd`. -/
def ReportsFailure (msg : MsgSendDirectReq2) (response : Except ErrorCode MsgSendDirectResp2) :
    Prop :=
  (∃ code, response = .error code) ∨
    response = .ok { request := msg, payload := DirectMessagePayload.ofBytes acpiErrorBytes }

structure DeliversOrReports (odp : OdpFfa) (service : PassthroughService) (msg : MsgSendDirectReq2)
    (frame : List UInt8) (message : Message) (line : Line UInt8) : Prop where
  returns : ∃ response line', (handleRequest odp service msg).run line = .done response line' ∧
    (Whole msg message.body response ∨ ReportsFailure msg response)
  collects : ∀ bytes, Collected service.uart frame line bytes → bytes.length ≤ maxMessageSizeBytes

section

variable (odp : OdpFfa) {service : PassthroughService} {msg : MsgSendDirectReq2} {info : CommandInfo}
  {frame : List UInt8} {line line' : Line UInt8}

variable {message : Message} {rest : List UInt8}

theorem whole_ofBytes {body : List UInt8} (hshort : body.length ≤ maxMessageSizeBytes) :
    Whole msg body (.ok { request := msg, payload := DirectMessagePayload.ofBytes body }) := by
  refine ⟨_, rfl, ?_⟩
  change (Buffer.padTo maxMessageSizeBytes 0 body).take body.length = body
  rw [Buffer.padTo, List.take_of_length_le hshort, List.take_left]

theorem collected_of_message
    (hreply : line.pending ++ service.uart.ec (line.sent ++ [frame]) = message.bytes ++ rest)
    (hfits : message.body.length ≤ bufsz) : Collected service.uart frame line message.body := by
  refine ⟨Reassembly.holding message.body, ⟨line.sent ++ [frame], rest⟩, ?_, ?_⟩
  · rw [hreply]
    exact loop_of_message message _ rest hfits
  · exact Buffer.slice_append [] message.body _ rfl (Nat.zero_add _)

theorem eq_body_of_collected
    (hreply : line.pending ++ service.uart.ec (line.sent ++ [frame]) = message.bytes ++ rest)
    {bytes : List UInt8} (hcollected : Collected service.uart frame line bytes) :
    bytes = message.body := by
  obtain ⟨out, line', hloop, hslice⟩ := hcollected
  rw [hreply] at hloop
  obtain ⟨_, _, hbody, hbodySlice⟩ := collected_of_message hreply (fits_of_loop_done hloop)
  rw [hreply, hloop] at hbody
  cases hbody
  exact Option.some.inj (hslice.symm.trans hbodySlice)

theorem handleRequest_of_long_reply
    (hinfo : service.commandInfo? msg.commandCode = some info)
    (hframe : encodeFrame odp service.destinationEid msg (info.payloadLen + 1) = some frame)
    (hreply : line.pending ++ service.uart.ec (line.sent ++ [frame]) = message.bytes ++ rest)
    (hlong : bufsz < message.body.length) :
    ∃ line', (handleRequest odp service msg).run line = .panicked .outOfRange line' := by
  obtain ⟨line', hloop⟩ := loop_of_long_message message (line.sent ++ [frame]) rest hlong
  rw [← hreply] at hloop
  exact ⟨line', handleRequest_of_sendCmd_panicked odp hinfo hframe
    (sendCmd_panicked_of_loop odp hloop)⟩

/-- **When a reply is delivered or reported.** The reply is to a frame that was transmitted; it may
be split into packets in any way. -/
theorem deliversOrReports_iff
    (hinfo : service.commandInfo? msg.commandCode = some info)
    (hframe : encodeFrame odp service.destinationEid msg (info.payloadLen + 1) = some frame)
    (hreply : line.pending ++ service.uart.ec (line.sent ++ [frame]) = message.bytes ++ rest) :
    DeliversOrReports odp service msg frame message line ↔
      message.body.length ≤ maxMessageSizeBytes := by
  constructor
  · intro hdelivers
    by_cases hfits : message.body.length ≤ bufsz
    · exact hdelivers.collects _ (collected_of_message hreply hfits)
    · obtain ⟨response, line', hdone, -⟩ := hdelivers.returns
      obtain ⟨_, hpanic⟩ :=
        handleRequest_of_long_reply odp hinfo hframe hreply (Nat.lt_of_not_le hfits)
      rw [hpanic] at hdone
      cases hdone
  · intro hshort
    have hsend := sendCmd_of_short_message odp hreply hshort
    refine ⟨⟨_, _, handleRequest_of_sendCmd_done odp hinfo hframe hsend, ?_⟩, ?_⟩
    · exact Or.inl (whole_ofBytes hshort)
    · intro bytes hcollected
      rwa [eq_body_of_collected hreply hcollected]

end

theorem deliversOrReports_splitReply :
    DeliversOrReports OdpFfa.strict (Service.battery.new (messageEc fun _ => [splitReply]))
      getBix.msg getBixFrame splitReply ⟨[], []⟩ := by
  have hinfo : (Service.battery.new (messageEc fun _ => [splitReply])).commandInfo?
      getBix.msg.commandCode = some ⟨0x1, 1, by decide⟩ := rfl
  have hreply : [] ++ (messageEc fun _ => [splitReply]).ec ([] ++ [getBixFrame]) =
      splitReply.bytes ++ [] := rfl
  have hframe := encodeFrame_eq OdpFfa.strict 8 getBix.msg (by decide : 1 < maxMessageSizeBytes)
  exact (deliversOrReports_iff OdpFfa.strict hinfo hframe hreply).mpr (by decide)

/-! ### A reply of five packets -/

/-- A packet of the greatest length. -/
def fullPacket (flags : UInt8) : Packet where
  destination := 0x2
  command := 0xF
  source := 0x1
  headerVersion := 0x1
  destinationEid := socMctpEntityId
  sourceEid := 8
  flags
  content := List.replicate 65 0
  content_le := Nat.le_of_eq (List.length_replicate ..)

def longMessage : Message where
  first := fullPacket 0x80
  later := [fullPacket 0, fullPacket 0, fullPacket 0, fullPacket 0x40]
  som_first := by decide
  odp_first := by decide
  som_later := by decide
  eom_last := by decide
  eom_before := by decide

def longReplyService : PassthroughService := Service.battery.new (messageEc fun _ => [longMessage])

theorem longMessage_panics :
    (∃ line', (handleRequest OdpFfa.strict longReplyService getBix.msg).run ⟨[], []⟩ =
        .panicked .outOfRange line') ∧
      ¬ DeliversOrReports OdpFfa.strict longReplyService getBix.msg (wireFrame 8 getBix.msg 1)
        longMessage ⟨[], []⟩ := by
  have hinfo : longReplyService.commandInfo? getBix.msg.commandCode = some ⟨0x1, 1, by decide⟩ := rfl
  have hframe := encodeFrame_eq OdpFfa.strict 8 getBix.msg (by decide : 1 < maxMessageSizeBytes)
  have hreply : (⟨[], []⟩ : Line UInt8).pending ++
      longReplyService.uart.ec ((⟨[], []⟩ : Line UInt8).sent ++ [wireFrame 8 getBix.msg 1]) =
        longMessage.bytes ++ [] := rfl
  have hlong : bufsz < longMessage.body.length := by
    simp [Message.body, longMessage, fullPacket, Packet.length_bytes, Packet.byteCount]
  obtain ⟨line', hpanic⟩ := handleRequest_of_long_reply OdpFfa.strict hinfo hframe hreply hlong
  refine ⟨⟨line', hpanic⟩, fun hdelivers => ?_⟩
  obtain ⟨response, line'', hdone, -⟩ := hdelivers.returns
  cases hpanic.symm.trans hdone

end OrionO6.Ec

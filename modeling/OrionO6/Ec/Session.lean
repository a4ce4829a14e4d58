import OrionO6.Ec.Encode

/-!
# Sessions

The three services handle requests one at a time on the UART they share. Each request transmits one
frame and takes the packets that end a message off the line; if the EC answers each frame with one
reply, in whatever packets, every request of a session gets the reply to its own frame and nothing is
left unread.
-/

namespace OrionO6.Ec

open Serial

abbrev EcExchange := Exchange Request UInt8 (Except ErrorCode MsgSendDirectResp2)

/-- An EC that puts each message on the line whole, one after another. What it says between two frames
counts as said upon the earlier one, which is no restriction: nothing is received before the next
frame. -/
def messageEc (ec : List (List UInt8) → List Message) : EcUart where
  ec := fun sent => (ec sent).flatMap Message.bytes

/-- A message that fits the register payload. -/
structure Reply extends Message where
  body_le : toMessage.body.length ≤ maxMessageSizeBytes

/-- An EC that answers each frame with one reply, which may depend on everything sent before. -/
def replyingEc (reply : List (List UInt8) → Reply) : EcUart where
  ec := fun sent => (reply sent).bytes

def Request.frame (request : Request) (info : CommandInfo) : List UInt8 :=
  wireFrame request.service.eid request.msg info.payloadLen

def Request.info? (request : Request) : Option CommandInfo :=
  request.service.commandInfo? request.msg.commandCode

/-! ### One request -/

section

variable (odp : OdpFfa)

theorem ffaMsgSendDirectReq2_of_unknown {uart : EcUart} {request : Request}
    (hunknown : request.info? = none) :
    ffaMsgSendDirectReq2 odp uart request = pure (.error .invalidParameters) := by
  have htable : (request.service.new uart).commandInfo? request.msg.commandCode = none := hunknown
  rw [ffaMsgSendDirectReq2, handleRequest, u8At_zero, Comp.orPanic_some, Comp.pure_bind, htable]

theorem ffaMsgSendDirectReq2_of_known {uart : EcUart} {request : Request} {info : CommandInfo}
    (hinfo : request.info? = some info) :
    ffaMsgSendDirectReq2 odp uart request =
      handleMessage odp (request.service.new uart) request.msg (info.payloadLen + 1) >>=
        fun payload => pure (payload.map fun payload => { request := request.msg, payload }) :=
  handleRequest_of_known odp hinfo

theorem payloadLen_lt_of_info {request : Request} {info : CommandInfo}
    (hinfo : request.info? = some info) : info.payloadLen < maxMessageSizeBytes := by
  have hle := (Service.commandInfo?_eq_some hinfo).2
  simp only [maxMessageSizeBytes, ffaPayloadRegisterCount, ffaRegisterSizeBytes]
  omega

theorem ffaMsgSendDirectReq2_of_packets {uart : EcUart} {request : Request} {info : CommandInfo}
    {line : Line UInt8} {packets : List Packet} {rest : List UInt8}
    (hinfo : request.info? = some info)
    (hpending : line.pending ++ uart.ec (line.sent ++ [request.frame info]) =
      packets.flatMap Packet.bytes ++ rest)
    (hclosed : Closed packets) (hodp : ∀ packet ∈ packets, packet.som = true → 9 ≤ packet.byteCount)
    (hshort : (packets.flatMap Packet.payload).length ≤ maxMessageSizeBytes) :
    (ffaMsgSendDirectReq2 odp uart request).run line =
      .done (.ok {
        request := request.msg
        payload := DirectMessagePayload.ofBytes (packets.flatMap Packet.payload) })
        ⟨line.sent ++ [request.frame info], rest⟩ := by
  have hsend : (sendCmd odp (request.service.new uart).uart (request.frame info)).run line =
      .done (.ok (DirectMessagePayload.ofBytes (packets.flatMap Packet.payload)))
        ⟨line.sent ++ [request.frame info], rest⟩ :=
    sendCmd_of_short_packets odp hpending hclosed hodp hshort
  have htable : (request.service.new uart).commandInfo? request.msg.commandCode = some info := hinfo
  have hframe := encodeFrame_eq odp request.service.eid request.msg (payloadLen_lt_of_info hinfo)
  exact handleRequest_of_sendCmd_done odp htable hframe hsend

theorem ffaMsgSendDirectReq2_of_reply {uart : EcUart} {request : Request} {info : CommandInfo}
    {line : Line UInt8} {message : Message} {rest : List UInt8}
    (hinfo : request.info? = some info)
    (hpending : line.pending ++ uart.ec (line.sent ++ [request.frame info]) = message.bytes ++ rest)
    (hshort : message.body.length ≤ maxMessageSizeBytes) :
    (ffaMsgSendDirectReq2 odp uart request).run line =
      .done (.ok {
        request := request.msg
        payload := DirectMessagePayload.ofBytes message.body })
        ⟨line.sent ++ [request.frame info], rest⟩ := by
  rw [message.body_eq_flatMap_payload] at hshort ⊢
  exact ffaMsgSendDirectReq2_of_packets odp hinfo hpending message.closed_packets
    message.odp_of_mem hshort

theorem sendCmd_of_ffaMsgSendDirectReq2_done {uart : EcUart} {request : Request}
    {info : CommandInfo} {line line' : Line UInt8} {response : Except ErrorCode MsgSendDirectResp2}
    (hinfo : request.info? = some info)
    (hdone : (ffaMsgSendDirectReq2 odp uart request).run line = .done response line') :
    ∃ result line'', (sendCmd odp uart (request.frame info)).run line = .done result line'' ∧
      ∀ payload, result = .ok payload →
        response = .ok { request := request.msg, payload } ∧ line' = line'' := by
  rw [ffaMsgSendDirectReq2_of_known odp hinfo, Comp.run_bind_eq_done_iff] at hdone
  obtain ⟨payload, middle, hmessage, hrest⟩ := hdone
  have hencode := encodeFrame_eq odp (request.service.new uart).destinationEid request.msg
    (payloadLen_lt_of_info hinfo)
  rw [handleMessage, hencode, Comp.orPanic_some, Comp.pure_bind, Comp.run_bind_eq_done_iff]
    at hmessage
  obtain ⟨result, line'', hsend, hresult⟩ := hmessage
  refine ⟨result, line'', hsend, ?_⟩
  intro value hvalue
  subst hvalue
  cases hresult
  cases hrest
  exact ⟨rfl, rfl⟩

end

/-! ### An EC that answers -/

/-- What an exchange with an EC that answers must look like: a known command transmits its frame and
nothing else, and its response carries the body of the reply to that frame; an unknown one transmits
nothing; and no byte is left unread. -/
def Answered (reply : List (List UInt8) → Reply) (exchange : EcExchange) : Prop :=
  exchange.after.pending = [] ∧
    match exchange.request.info? with
    | some info =>
        exchange.after.sent = exchange.before.sent ++ [exchange.request.frame info] ∧
        exchange.response = .ok {
          request := exchange.request.msg
          payload := DirectMessagePayload.ofBytes (reply exchange.after.sent).body }
    | none => exchange.after.sent = exchange.before.sent ∧
        exchange.response = .error .invalidParameters

theorem answered_of_idle (odp : OdpFfa) (reply : List (List UInt8) → Reply) (request : Request)
    (line : Line UInt8) (hidle : line.pending = []) :
    ∃ response line', (ffaMsgSendDirectReq2 odp (replyingEc reply) request).run line =
        .done response line' ∧
      line'.pending = [] ∧
      Answered reply { request, response, before := line, after := line' } := by
  cases hinfo : request.info? with
  | none =>
      refine ⟨.error .invalidParameters, line, ?_, hidle, hidle, ?_⟩
      · rw [ffaMsgSendDirectReq2_of_unknown odp hinfo, Comp.run_pure]
      · simp only [hinfo, and_self]
  | some info =>
      have hpending : line.pending ++ (replyingEc reply).ec (line.sent ++ [request.frame info]) =
          (reply (line.sent ++ [request.frame info])).bytes ++ [] := by
        rw [hidle, List.append_nil]
        rfl
      refine ⟨_, _, ffaMsgSendDirectReq2_of_reply odp hinfo hpending (Reply.body_le _), rfl, rfl, ?_⟩
      simp only [hinfo, and_self]

/-- **Sessions are correct.** An EC that answers each frame with one reply, however it splits it into
packets, gets every session through: every known command is answered with the reply to its own frame,
and the line is on a packet boundary with nothing unread after every request. -/
theorem session_answered (odp : OdpFfa) (reply : List (List UInt8) → Reply)
    (requests : List Request) (sent : List (List UInt8)) :
    ∃ log final,
      session (ffaMsgSendDirectReq2 odp (replyingEc reply)) requests ⟨sent, []⟩ =
        .done log final ∧
      final.pending = [] ∧ log.map Exchange.request = requests ∧
        ∀ exchange ∈ log, Answered reply exchange :=
  session_of_invariant _ (answered_of_idle odp reply) requests ⟨sent, []⟩ rfl

/-! ### Two requests -/

def getBix : Request where
  service := .battery
  msg := { payload := DirectMessagePayload.ofBytes [0x1, 0] }

def getTmp : Request where
  service := .thermal
  msg := { payload := DirectMessagePayload.ofBytes [0x1, 0] }

theorem info_getBix : getBix.info? = some ⟨0x1, 1, by decide⟩ := rfl

theorem info_getTmp : getTmp.info? = some ⟨0x1, 1, by decide⟩ := rfl

def getBixFrame : List UInt8 := wireFrame 8 getBix.msg 1

def getTmpFrame : List UInt8 := wireFrame 9 getTmp.msg 1

def okResponse (request : Request) (bytes : List UInt8) : Except ErrorCode MsgSendDirectResp2 :=
  .ok { request := request.msg, payload := DirectMessagePayload.ofBytes bytes }

def strayMessage : Message :=
  requestMessage 9 { payload := DirectMessagePayload.ofBytes [0x1, 0xAA] } 1 (by decide)

def getBixReply : Message :=
  requestMessage 8 { payload := DirectMessagePayload.ofBytes [0x1, 0xBB] } 1 (by decide)

/-- A packet of a reply of the battery service. -/
def replyPacket (flags : UInt8) (content : List UInt8) (hcontent : content.length ≤ 65) : Packet where
  destination := 0x2
  command := 0xF
  source := 0x1
  headerVersion := 0x1
  destinationEid := socMctpEntityId
  sourceEid := 8
  flags := flags
  content := content
  content_le := hcontent

/-- A reply to `getBix` in two packets. -/
def splitReply : Message where
  first := replyPacket 0x80 [0x7D, 0, 8, 0, 0x1, 0xB1] (by decide)
  later := [replyPacket 0x40 [0xB2] (by decide)]
  som_first := by decide
  odp_first := by decide
  som_later := by decide
  eom_last := by decide
  eom_before := by decide

end OrionO6.Ec

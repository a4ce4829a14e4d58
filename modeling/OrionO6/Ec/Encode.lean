import OrionO6.Ec.Receive
import OrionO6.Ec.Services

/-!
# Encoding a request

The frame `handle_message` builds is its thirteen header bytes followed by the arguments, for every
argument list the register payload has room for. Read back, the same bytes are a message of one
packet whose body is the arguments.
-/

namespace OrionO6.Ec

open Serial

def MsgSendDirectReq2.commandCode (msg : MsgSendDirectReq2) : UInt8 := msg.payload.bytes.getD 0 0

/-- The first `count` argument bytes of a request: those after the command code. -/
def MsgSendDirectReq2.arguments (msg : MsgSendDirectReq2) (count : Nat) : List UInt8 :=
  (msg.payload.bytes.drop 1).take count

/-- What a request looks like on the wire. -/
def wireFrame (destinationEid : UInt8) (msg : MsgSendDirectReq2) (payloadLen : Nat) : List UInt8 :=
  frameHeader destinationEid (UInt8.ofNat (9 + payloadLen)) msg.commandCode ++
    msg.arguments payloadLen

theorem MsgSendDirectReq2.length_arguments (msg : MsgSendDirectReq2) {count : Nat}
    (hcount : count < maxMessageSizeBytes) : (msg.arguments count).length = count := by
  have hlength := msg.payload.length_bytes
  rw [arguments, List.length_take_of_le]
  rw [List.length_drop, hlength]
  omega

theorem MsgSendDirectReq2.arguments_succ (msg : MsgSendDirectReq2) {count : Nat} {byte : UInt8}
    (hbyte : msg.payload.bytes[1 + count]? = some byte) :
    msg.arguments (count + 1) = msg.arguments count ++ [byte] := by
  rw [arguments, arguments, List.take_add_one, List.getElem?_drop, hbyte]
  rfl

section

variable (odp : OdpFfa)

theorem exists_byte (msg : MsgSendDirectReq2) {index : Nat} (hindex : index < maxMessageSizeBytes) :
    ∃ byte, msg.payload.bytes[index]? = some byte :=
  ⟨_, List.getElem?_eq_getElem (by rwa [msg.payload.length_bytes])⟩

theorem u8At_zero (msg : MsgSendDirectReq2) :
    odp.u8At msg.payload 0 = some msg.commandCode := by
  obtain ⟨byte, hbyte⟩ := exists_byte msg (by decide : 0 < maxMessageSizeBytes)
  rw [odp.u8At_of_lt _ _ (by decide), MsgSendDirectReq2.commandCode, List.getD_eq_getElem?_getD,
    hbyte, Option.getD_some]

theorem store_header {header : List UInt8} (hheader : header.length = 13) :
    Buffer.store (List.replicate (maxMessageSizeBytes + packetHeaderBytes) 0) 0 header =
      some (header ++ List.replicate maxMessageSizeBytes 0) := by
  have hstore := Buffer.store_append []
    (List.replicate (maxMessageSizeBytes + packetHeaderBytes) 0) header rfl
    (by rw [hheader, List.length_replicate]; decide)
  rwa [List.nil_append, List.nil_append, List.drop_replicate, hheader] at hstore

/-- The copy loop of `handle_message` stores the arguments right after the header. -/
theorem copy_arguments (msg : MsgSendDirectReq2) (header : List UInt8) (hheader : header.length = 13)
    {count : Nat} (hcount : count < maxMessageSizeBytes) :
    (List.range' 1 count).foldlM (fun data i => do
        let byte ← odp.u8At msg.payload i
        Buffer.store data (i + (packetHeaderBytes - 1)) [byte])
      (header ++ List.replicate maxMessageSizeBytes 0) =
    some (header ++ msg.arguments count ++ List.replicate (maxMessageSizeBytes - count) 0) := by
  induction count with
  | zero => simp [MsgSendDirectReq2.arguments]
  | succ count ih =>
      obtain ⟨byte, hbyte⟩ := exists_byte msg (by omega : 1 + count < maxMessageSizeBytes)
      have hat : odp.u8At msg.payload (1 + count) = some byte := by
        rw [odp.u8At_of_lt _ _ (by omega), hbyte]
      have hstore : Buffer.store
          (header ++ msg.arguments count ++ List.replicate (maxMessageSizeBytes - count) 0)
          (1 + count + (packetHeaderBytes - 1)) [byte] =
        some (header ++ msg.arguments (count + 1) ++
          List.replicate (maxMessageSizeBytes - (count + 1)) 0) := by
        rw [Buffer.store_append _ _ [byte], msg.arguments_succ hbyte, List.drop_replicate]
        · simp only [List.append_assoc, List.length_singleton, Nat.sub_sub]
        · rw [List.length_append, hheader, msg.length_arguments (by omega)]
          simp only [packetHeaderBytes, smbusPacketHeaderBytes, mctpPacketHeaderBytes,
            mctpMessageHeaderBytes, odpMessageHeaderBytes]
          omega
        · rw [List.length_singleton, List.length_replicate]
          omega
      rw [List.range'_1_concat, List.foldlM_append, ih (by omega)]
      simp only [List.foldlM_cons, List.foldlM_nil, Option.bind_eq_bind, Option.bind_some, hat, hstore]
      rfl

/-- **The encoder.** Up to 111 argument bytes, encoding neither reads past the register payload nor
writes past its array. -/
theorem encodeFrame_eq (destinationEid : UInt8) (msg : MsgSendDirectReq2) {payloadLen : Nat}
    (hlen : payloadLen < maxMessageSizeBytes) :
    encodeFrame odp destinationEid msg (payloadLen + 1) =
      some (wireFrame destinationEid msg payloadLen) := by
  set header := frameHeader destinationEid (UInt8.ofNat (9 + payloadLen)) msg.commandCode
    with hheaderDef
  have hheader : header.length = 13 := rfl
  have harguments := msg.length_arguments hlen
  have hslice : Buffer.slice
      (header ++ msg.arguments payloadLen ++ List.replicate (maxMessageSizeBytes - payloadLen) 0) 0
      (packetHeaderBytes + (payloadLen + 1) - 1) = some (header ++ msg.arguments payloadLen) := by
    refine Buffer.slice_append [] (header ++ msg.arguments payloadLen) _ rfl ?_
    rw [List.length_append, hheader, harguments]
    simp only [packetHeaderBytes, smbusPacketHeaderBytes, mctpPacketHeaderBytes,
      mctpMessageHeaderBytes, odpMessageHeaderBytes]
    omega
  have hcount : 8 + (payloadLen + 1) = 9 + payloadLen := by omega
  rw [encodeFrame, u8At_zero, Option.bind_eq_bind, Option.bind_some, hcount, store_header hheader,
    Nat.add_sub_cancel]
  simp only [Option.bind_eq_bind, Option.bind_some]
  have hcopy := copy_arguments odp msg header hheader hlen
  simp only [Option.bind_eq_bind] at hcopy
  rw [hcopy, Option.bind_some]
  exact hslice

/-- `handle_message` transmits the wire frame and nothing else, whichever way it ends. -/
theorem sends_handleMessage (service : PassthroughService) (msg : MsgSendDirectReq2)
    {payloadLen : Nat} (hlen : payloadLen < maxMessageSizeBytes) :
    Comp.Sends [wireFrame service.destinationEid msg payloadLen]
      (handleMessage odp service msg (payloadLen + 1)) := by
  rw [handleMessage, encodeFrame_eq odp _ msg hlen, Comp.orPanic_some, Comp.pure_bind]
  apply (sends_sendCmd odp service.uart _).bind
  intro result
  cases result with
  | ok value => exact Comp.Sends.pure _
  | error code => exact (Comp.Sends.orPanic _ _).bind fun payload => Comp.Sends.pure _

section

variable {service : PassthroughService} {msg : MsgSendDirectReq2} {info : CommandInfo}
  {frame : List UInt8} {line line' : Line UInt8}

theorem handleRequest_of_known (hinfo : service.commandInfo? msg.commandCode = some info) :
    handleRequest odp service msg =
      handleMessage odp service msg (info.payloadLen + 1) >>=
        fun payload => pure (payload.map fun payload => { request := msg, payload }) := by
  rw [handleRequest, u8At_zero, Comp.orPanic_some, Comp.pure_bind, hinfo]

theorem sends_handleRequest (hinfo : service.commandInfo? msg.commandCode = some info)
    (hlen : info.payloadLen < maxMessageSizeBytes) :
    Comp.Sends [wireFrame service.destinationEid msg info.payloadLen]
      (handleRequest odp service msg) := by
  rw [handleRequest_of_known odp hinfo]
  exact (sends_handleMessage odp service msg hlen).bind fun payload => Comp.Sends.pure _

/-- A known request whose frame was transmitted ends the way `send_cmd` does. -/
theorem handleRequest_of_sendCmd_done
    (hinfo : service.commandInfo? msg.commandCode = some info)
    (hframe : encodeFrame odp service.destinationEid msg (info.payloadLen + 1) = some frame)
    {payload : DirectMessagePayload}
    (hsend : (sendCmd odp service.uart frame).run line = .done (.ok payload) line') :
    (handleRequest odp service msg).run line = .done (.ok { request := msg, payload }) line' := by
  have hmessage : (handleMessage odp service msg (info.payloadLen + 1)).run line =
      .done (.ok payload) line' := by
    rw [handleMessage, hframe, Comp.orPanic_some, Comp.pure_bind, Comp.run_bind_of_done hsend]
    rfl
  rw [handleRequest_of_known odp hinfo, Comp.run_bind_of_done hmessage]
  rfl

theorem handleRequest_of_sendCmd_panicked
    (hinfo : service.commandInfo? msg.commandCode = some info)
    (hframe : encodeFrame odp service.destinationEid msg (info.payloadLen + 1) = some frame)
    {reason : Panic} (hsend : (sendCmd odp service.uart frame).run line = .panicked reason line') :
    (handleRequest odp service msg).run line = .panicked reason line' := by
  rw [handleRequest_of_known odp hinfo, handleMessage, hframe, Comp.orPanic_some, Comp.pure_bind]
  exact Comp.run_bind_of_panicked (Comp.run_bind_of_panicked hsend)

end

end

/-! ### The frame as a packet -/

theorem lt_of_fits {payloadLen : Nat} (hfits : 9 + payloadLen ≤ maxMctpPacketLen) :
    payloadLen < maxMessageSizeBytes := by
  simp only [maxMctpPacketLen] at hfits
  simp only [maxMessageSizeBytes, ffaPayloadRegisterCount, ffaRegisterSizeBytes]
  omega

def requestPacket (destinationEid : UInt8) (msg : MsgSendDirectReq2) (payloadLen : Nat)
    (hfits : 9 + payloadLen ≤ maxMctpPacketLen) : Packet where
  destination := 0x2
  command := 0xF
  source := 0x1
  headerVersion := 0x1
  destinationEid := destinationEid
  sourceEid := socMctpEntityId
  flags := 0xD3
  content := [0x7D, isRequest, destinationEid, 0, msg.commandCode] ++ msg.arguments payloadLen
  content_le := by
    rw [List.length_append, msg.length_arguments (lt_of_fits hfits)]
    simp only [maxMctpPacketLen] at hfits
    simp only [List.length_cons, List.length_nil]
    omega

theorem byteCount_requestPacket (destinationEid : UInt8) (msg : MsgSendDirectReq2) {payloadLen : Nat}
    (hfits : 9 + payloadLen ≤ maxMctpPacketLen) :
    (requestPacket destinationEid msg payloadLen hfits).byteCount = 9 + payloadLen := by
  rw [Packet.byteCount, requestPacket, List.length_append, msg.length_arguments (lt_of_fits hfits)]
  simp only [List.length_cons, List.length_nil]
  omega

theorem bytes_requestPacket (destinationEid : UInt8) (msg : MsgSendDirectReq2) {payloadLen : Nat}
    (hfits : 9 + payloadLen ≤ maxMctpPacketLen) :
    (requestPacket destinationEid msg payloadLen hfits).bytes =
      wireFrame destinationEid msg payloadLen := by
  rw [Packet.bytes, byteCount_requestPacket]
  rfl

def requestMessage (destinationEid : UInt8) (msg : MsgSendDirectReq2) (payloadLen : Nat)
    (hfits : 9 + payloadLen ≤ maxMctpPacketLen) : Message where
  first := requestPacket destinationEid msg payloadLen hfits
  later := []
  som_first := decide_eq_true (by decide : (0xD3 : UInt8) &&& 0x80 ≠ 0)
  odp_first := by
    rw [byteCount_requestPacket]
    exact Nat.le_add_right _ _
  som_later := by simp
  eom_last := by
    rw [List.getLast_singleton]
    exact decide_eq_true (by decide : (0xD3 : UInt8) &&& 0x40 ≠ 0)
  eom_before := by simp

theorem bytes_requestMessage (destinationEid : UInt8) (msg : MsgSendDirectReq2) {payloadLen : Nat}
    (hfits : 9 + payloadLen ≤ maxMctpPacketLen) :
    (requestMessage destinationEid msg payloadLen hfits).bytes =
      wireFrame destinationEid msg payloadLen := by
  rw [← bytes_requestPacket destinationEid msg hfits, Message.bytes, Message.packets, requestMessage,
    List.flatMap_cons, List.flatMap_nil, List.append_nil]

theorem body_requestMessage (destinationEid : UInt8) (msg : MsgSendDirectReq2) {payloadLen : Nat}
    (hfits : 9 + payloadLen ≤ maxMctpPacketLen) :
    (requestMessage destinationEid msg payloadLen hfits).body = msg.arguments payloadLen := by
  rw [Message.body, requestMessage, List.flatMap_nil, List.append_nil]
  rfl

/-- What it means for the frame of a request to be one packet under the rules of the receiver. -/
structure ReadsBack (odp : OdpFfa) (service : PassthroughService) (msg : MsgSendDirectReq2)
    (payloadLen : Nat) (frame : List UInt8) : Prop where
  transmitted : ∀ line,
    ((handleMessage odp service msg (payloadLen + 1)).run line).line.sent = line.sent ++ [frame]
  byteCount : (frame.getD 2 0).toNat = (frame.drop smbusPacketHeaderBytes).length
  serviceId : frame.getD 10 0 = service.destinationEid
  commandCode : frame.getD 12 0 = msg.payload.bytes.getD 0 0
  /-- The first round of the receive loop takes the frame and stops. -/
  onePacket : ∀ sent rest,
    (receivePacket Reassembly.empty).run ⟨sent, frame ++ rest⟩ =
      .done (Reassembly.holding (msg.arguments payloadLen), true) ⟨sent, rest⟩
  /-- Receiving from the frame, whatever was sent, returns the arguments and leaves what follows. -/
  received : ∀ data sent rest,
    (sendCmd odp { ec := fun _ => [] } data).run ⟨sent, frame ++ rest⟩ =
      .done (.ok (DirectMessagePayload.ofBytes (msg.arguments payloadLen)))
        ⟨sent ++ [data], rest⟩

theorem readsBack_wireFrame (odp : OdpFfa) (service : PassthroughService) (info : CommandInfo)
    (msg : MsgSendDirectReq2) (hfits : 9 + info.payloadLen ≤ maxMctpPacketLen) :
    ReadsBack odp service msg info.payloadLen
      (wireFrame service.destinationEid msg info.payloadLen) := by
  let packet := requestPacket service.destinationEid msg info.payloadLen hfits
  let message := requestMessage service.destinationEid msg info.payloadLen hfits
  have hbytes : packet.bytes = wireFrame service.destinationEid msg info.payloadLen :=
    bytes_requestPacket _ msg hfits
  have hmessageBytes : message.bytes = wireFrame service.destinationEid msg info.payloadLen :=
    bytes_requestMessage _ msg hfits
  have hbody : message.body = msg.arguments info.payloadLen := body_requestMessage _ msg hfits
  have hlength : (msg.arguments info.payloadLen).length = info.payloadLen :=
    msg.length_arguments (lt_of_fits hfits)
  have hsom : packet.som = true := message.som_first
  have hpayload : packet.payload = msg.arguments info.payloadLen := by
    rw [Packet.payload, if_pos hsom]
    rfl
  have heom : packet.eom = true := message.eom_last
  simp only [maxMctpPacketLen] at hfits
  constructor
  · exact sends_handleMessage odp service msg (lt_of_fits hfits)
  · rw [← hbytes, List.length_drop, Packet.length_bytes, Nat.add_sub_cancel_left]
    exact packet.toNat_byteCount
  · rfl
  · rfl
  · intro sent rest
    have haccept : RoundAccepts [] packet := by
      refine ⟨message.odp_of_mem packet List.mem_cons_self, ?_⟩
      rw [hpayload, hlength, List.length_nil]
      simp only [bufsz]
      omega
    have hround := round_of_accepts [] packet sent rest haccept
    rw [hbytes, hpayload, heom] at hround
    exact hround
  · intro data sent rest
    have hpending : wireFrame service.destinationEid msg info.payloadLen ++ rest ++ [] =
        message.bytes ++ rest := by
      rw [List.append_nil, hmessageBytes]
    have hshort : message.body.length ≤ maxMessageSizeBytes := by
      rw [hbody, hlength]
      exact Nat.le_of_lt (lt_of_fits hfits)
    rw [sendCmd_of_short_message odp hpending hshort, hbody]

/-- **What the encoder sends, the receiver reads back.** For every destination and every command
whose frame fits one packet, as all commands of the three services do. -/
theorem exists_frame_readsBack (odp : OdpFfa) :
    (∀ service : Service, ∀ info ∈ service.commands, 9 + info.payloadLen ≤ maxMctpPacketLen) ∧
      ∀ (service : PassthroughService) (info : CommandInfo) (msg : MsgSendDirectReq2),
        9 + info.payloadLen ≤ maxMctpPacketLen →
          ∃ frame, ReadsBack odp service msg info.payloadLen frame := by
  constructor
  · intro service info hmem
    have hle := Service.payloadLen_le_of_mem hmem
    simp only [maxMctpPacketLen]
    omega
  · intro service info msg hfits
    exact ⟨_, readsBack_wireFrame odp service info msg hfits⟩

theorem exists_frame_readsBack_setVar :
    ∃ frame, ReadsBack OdpFfa.strict (Service.thermal.new { ec := fun _ => [] })
      { payload := DirectMessagePayload.ofBytes [6, 1, 2, 3] } 23 frame :=
  (exists_frame_readsBack OdpFfa.strict).2 (Service.thermal.new { ec := fun _ => [] })
    ⟨0x6, 23, by decide⟩ _ (by decide)

end OrionO6.Ec

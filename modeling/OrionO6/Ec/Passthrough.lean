import OrionO6.Library.Buffer
import OrionO6.Library.Serial

/-!
# The EC passthrough service

A request that reaches the secure partition carries a command code and arguments in its register
payload. The service checks the code against its table, frames the arguments as one SMBus/MCTP
packet with an ODP header, writes the frame to the EC UART, and reassembles the packets of the
answer into the payload of the response.

The functions follow the source statement by statement. What `odp_ffa` does with a register payload
is not part of the repository, so it enters as `OdpFfa`.
-/

namespace OrionO6.Ec

open Serial

@[simp] abbrev smbusPacketHeaderBytes : Nat := 4
@[simp] abbrev mctpPacketHeaderBytes : Nat := 4
@[simp] abbrev mctpMessageHeaderBytes : Nat := 1
@[simp] abbrev odpMessageHeaderBytes : Nat := 4

@[simp] abbrev ffaPayloadRegisterCount : Nat := 14
@[simp] abbrev ffaRegisterSizeBytes : Nat := 8
@[simp] abbrev maxMessageSizeBytes : Nat := ffaPayloadRegisterCount * ffaRegisterSizeBytes

@[simp] abbrev socMctpEntityId : UInt8 := 0x80

@[simp] abbrev bufsz : Nat := 256
@[simp] abbrev maxMctpPacketLen : Nat := 69

/-! ### Register payloads -/

/-- The fourteen registers of a direct message, as bytes. -/
structure DirectMessagePayload where
  bytes : List UInt8
  length_bytes : bytes.length = maxMessageSizeBytes

def DirectMessagePayload.ofBytes (bytes : List UInt8) : DirectMessagePayload where
  bytes := Buffer.padTo maxMessageSizeBytes 0 bytes
  length_bytes := Buffer.length_padTo _ _ _

/-- The two operations of `odp_ffa` the service uses, with what it relies on: the bytes of a payload
can be read one by one, and up to a payload's worth of bytes can be collected into one. Nothing is
said about an index past the end or about more bytes than fit; `none` stands for a panic. -/
structure OdpFfa where
  u8At : DirectMessagePayload → Nat → Option UInt8
  collect : List UInt8 → Option DirectMessagePayload
  u8At_of_lt : ∀ payload index, index < maxMessageSizeBytes →
    u8At payload index = payload.bytes[index]?
  collect_of_le : ∀ bytes, bytes.length ≤ maxMessageSizeBytes →
    collect bytes = some (DirectMessagePayload.ofBytes bytes)

/-- An `odp_ffa` that panics on everything it makes no promise about. -/
def OdpFfa.strict : OdpFfa where
  u8At payload index := payload.bytes[index]?
  collect bytes :=
    if bytes.length ≤ maxMessageSizeBytes then some (DirectMessagePayload.ofBytes bytes) else none
  u8At_of_lt _ _ _ := rfl
  collect_of_le _ hle := if_pos hle

structure MsgSendDirectReq2 where
  payload : DirectMessagePayload

structure MsgSendDirectResp2 where
  request : MsgSendDirectReq2
  payload : DirectMessagePayload

inductive ErrorCode where
  | invalidParameters
  deriving DecidableEq

inductive Panic where
  | payloadLenTooLarge
  | invalidMctpPacketLength (len : Nat)
  | outOfRange
  | collect
  deriving DecidableEq

/-! ### The UART -/

abbrev Uart (α : Type) := Comp Panic UInt8 α

/-- The UART, with the EC at its other end. -/
structure EcUart where
  ec : Peer UInt8

def EcUart.write (uart : EcUart) (buf : List UInt8) : Uart Unit :=
  Comp.send uart.ec buf

/-- `uart.read(&mut buffer[start..stop])`: the window is taken before the first byte is read. -/
def EcUart.read (buffer : List UInt8) (start stop : Nat) : Uart (List UInt8) := do
  let window ← Comp.orPanic .outOfRange (Buffer.slice buffer start stop)
  let bytes ← Comp.receive window.length
  Comp.orPanic .outOfRange (Buffer.store buffer start bytes)

/-! ### Services -/

/-- A table entry. Its fields are private and `new` is the only way to build one, so the bound `new`
checks is part of the type. -/
structure CommandInfo where
  commandCode : UInt8
  payloadLen : Nat
  payloadLen_le : payloadLen ≤ maxMessageSizeBytes

def CommandInfo.new (commandCode : UInt8) (payloadLen : Nat) : Except Panic CommandInfo :=
  if hlarge : payloadLen > maxMessageSizeBytes then
    .error .payloadLenTooLarge
  else
    .ok { commandCode, payloadLen, payloadLen_le := Nat.le_of_not_gt hlarge }

structure PassthroughService where
  uart : EcUart
  destinationEid : UInt8
  supportedCommands : List CommandInfo

/-! ### Receiving -/

structure Reassembly where
  outBuf : List UInt8
  outLen : Nat

def Reassembly.empty : Reassembly where
  outBuf := List.replicate bufsz 0
  outLen := 0

/-- One round of the loop of `send_cmd`: one packet, and whether it carries the EOM flag. -/
def receivePacket (out : Reassembly) : Uart (Reassembly × Bool) := do
  -- the SMBus header: destination address, command code, byte count, source slave
  let buffer ← EcUart.read (List.replicate bufsz 0) 0 smbusPacketHeaderBytes
  let len := (buffer.getD 2 0).toNat
  if mctpPacketHeaderBytes ≤ len ∧ len ≤ maxMctpPacketLen then
    let buffer ← EcUart.read buffer smbusPacketHeaderBytes (smbusPacketHeaderBytes + len)
    let flags := buffer.getD 7 0
    let packetPayloadStartIndex := smbusPacketHeaderBytes + mctpPacketHeaderBytes +
      if flags &&& 0x80 ≠ 0 then mctpMessageHeaderBytes + odpMessageHeaderBytes else 0
    let outSlice ← Comp.orPanic .outOfRange
      (Buffer.slice buffer packetPayloadStartIndex (len + smbusPacketHeaderBytes))
    let outBuf ← Comp.orPanic .outOfRange (Buffer.store out.outBuf out.outLen outSlice)
    pure ({ outBuf, outLen := out.outLen + outSlice.length }, decide (flags &&& 0x40 ≠ 0))
  else
    Comp.panic (.invalidMctpPacketLength len)

theorem EcUart.takes_read (buffer : List UInt8) (start stop : Nat) :
    Comp.Takes (stop - start) (EcUart.read buffer start stop) := by
  cases hslice : Buffer.slice buffer start stop with
  | none =>
      rw [EcUart.read, hslice]
      exact Comp.Takes.panic _ _
  | some window =>
      rw [EcUart.read, hslice, Comp.orPanic_some, Comp.pure_bind, ← Buffer.length_of_slice hslice]
      exact Comp.Takes.bind _ 0 (Comp.Takes.receive window.length) fun bytes =>
        Comp.Takes.orPanic _ (Buffer.store buffer start bytes)

theorem takes_receivePacket (out : Reassembly) : Comp.Takes 8 (receivePacket out) := by
  apply Comp.Takes.bind 4 4 (EcUart.takes_read _ 0 4)
  intro buffer
  dsimp only
  split
  · rename_i hlen
    have hread := EcUart.takes_read buffer smbusPacketHeaderBytes
      (smbusPacketHeaderBytes + (buffer.getD 2 0).toNat)
    apply Comp.Takes.bind 4 0 (hread.mono (by simpa using hlen.1))
    intro buffer
    apply Comp.Takes.bind 0 0 (Comp.Takes.orPanic _ _)
    intro outSlice
    exact Comp.Takes.bind 0 0 (Comp.Takes.orPanic _ _) fun outBuf => Comp.Takes.pure _
  · exact Comp.Takes.panic _ _

/-- The loop of `send_cmd`, which keeps going until EOM is set. -/
def packetBody : Body Panic UInt8 Reassembly where
  round := receivePacket
  takes out := (takes_receivePacket out).mono (by omega)

section

variable (odp : OdpFfa)

def sendCmd (uart : EcUart) (data : List UInt8) : Uart (Except ErrorCode DirectMessagePayload) := do
  uart.write data
  let out ← packetBody.loop Reassembly.empty
  let received ← Comp.orPanic .outOfRange (Buffer.slice out.outBuf 0 out.outLen)
  let payload ← Comp.orPanic .collect (odp.collect received)
  pure (.ok payload)

/-! ### Sending -/

@[simp] abbrev packetHeaderBytes : Nat :=
  smbusPacketHeaderBytes + mctpPacketHeaderBytes + mctpMessageHeaderBytes + odpMessageHeaderBytes

def isRequest : UInt8 := (1 : UInt8) <<< 1

/-- The thirteen header bytes `handle_message` stores at the front of its array. -/
def frameHeader (destinationEid byteCount commandCode : UInt8) : List UInt8 := [
  -- SMBus: destination slave, command code MCTP, byte count, source
  0x2, 0xF, byteCount, 0x1,
  -- MCTP: header version, destination EID, source EID, flags SOM | EOM | SEQ=0x1 | TAG=0x3
  0x1, destinationEid, socMctpEntityId, 0xD3,
  -- ODP: message type, message flags, service id, command code (high bits, low bits)
  0x7D, isRequest, destinationEid, 0, commandCode]

/-- The part of `handle_message` before the transmit: the frame, or `none` where an index is out of
range. `len` counts the command code and the arguments. -/
def encodeFrame (destinationEid : UInt8) (msg : MsgSendDirectReq2) (len : Nat) :
    Option (List UInt8) := do
  let commandCode ← odp.u8At msg.payload 0
  let data ← Buffer.store (List.replicate (maxMessageSizeBytes + packetHeaderBytes) 0) 0
    (frameHeader destinationEid (UInt8.ofNat (8 + len)) commandCode)
  let data ← (List.range' 1 (len - 1)).foldlM (fun data i => do
    let byte ← odp.u8At msg.payload i
    -- the command code is already part of the header, so the arguments start one earlier
    Buffer.store data (i + (packetHeaderBytes - 1)) [byte]) data
  let totalLen := packetHeaderBytes + len - 1
  Buffer.slice data 0 totalLen

/-- `AcpiError::Error`, little-endian. -/
def acpiErrorBytes : List UInt8 := [0x1, 0, 0, 0]

def handleMessage (service : PassthroughService) (msg : MsgSendDirectReq2) (len : Nat) :
    Uart (Except ErrorCode DirectMessagePayload) := do
  let frame ← Comp.orPanic .outOfRange (encodeFrame odp service.destinationEid msg len)
  let result ← sendCmd odp service.uart frame
  match result with
  | .ok value => pure (.ok value)
  | .error _ =>
      let payload ← Comp.orPanic .collect (odp.collect acpiErrorBytes)
      pure (.ok payload)

def PassthroughService.commandInfo? (service : PassthroughService) (cmd : UInt8) :
    Option CommandInfo :=
  service.supportedCommands.find? fun info => info.commandCode == cmd

def handleRequest (service : PassthroughService) (msg : MsgSendDirectReq2) :
    Uart (Except ErrorCode MsgSendDirectResp2) := do
  let cmd ← Comp.orPanic .outOfRange (odp.u8At msg.payload 0)
  match service.commandInfo? cmd with
  | none => pure (.error .invalidParameters)
  | some info =>
      let commandCodeSizeBytes := 1
      let payload ← handleMessage odp service msg (info.payloadLen + commandCodeSizeBytes)
      pure (payload.map fun payload => { request := msg, payload })

end

end OrionO6.Ec

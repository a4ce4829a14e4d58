import OrionO6.Ec.Services
import OrionO6.Library.SerialRefinement

/-!
# The service over any UART

The same service code runs over the line, where writing a frame is one step, and over the device
registers, where every byte is one. What it uses of a UART is a port: writing a buffer and reading
a number of bytes. Over the line it is the service of the earlier modules.
-/

namespace OrionO6.Ec

open Serial

structure Port (β : Type) where
  write : List UInt8 → Comp Panic β Unit
  read : Nat → Comp Panic β (List UInt8)
  takes_read : ∀ count, Comp.Takes count (read count)

/-- The UART as a line to the EC. -/
def linePort (uart : EcUart) : Port UInt8 where
  write := uart.write
  read := Comp.receive
  takes_read := Comp.Takes.receive

namespace Port

variable {β γ : Type} (port : Port β)

def readInto (buffer : List UInt8) (start stop : Nat) : Comp Panic β (List UInt8) := do
  let window ← Comp.orPanic .outOfRange (Buffer.slice buffer start stop)
  let bytes ← port.read window.length
  Comp.orPanic .outOfRange (Buffer.store buffer start bytes)

def receivePacket (out : Reassembly) : Comp Panic β (Reassembly × Bool) := do
  let buffer ← port.readInto (List.replicate bufsz 0) 0 smbusPacketHeaderBytes
  let len := (buffer.getD 2 0).toNat
  if mctpPacketHeaderBytes ≤ len ∧ len ≤ maxMctpPacketLen then
    let buffer ← port.readInto buffer smbusPacketHeaderBytes (smbusPacketHeaderBytes + len)
    let flags := buffer.getD 7 0
    let packetPayloadStartIndex := smbusPacketHeaderBytes + mctpPacketHeaderBytes +
      if flags &&& 0x80 ≠ 0 then mctpMessageHeaderBytes + odpMessageHeaderBytes else 0
    let outSlice ← Comp.orPanic .outOfRange
      (Buffer.slice buffer packetPayloadStartIndex (len + smbusPacketHeaderBytes))
    let outBuf ← Comp.orPanic .outOfRange (Buffer.store out.outBuf out.outLen outSlice)
    pure ({ outBuf, outLen := out.outLen + outSlice.length }, decide (flags &&& 0x40 ≠ 0))
  else
    Comp.panic (.invalidMctpPacketLength len)

theorem takes_readInto (buffer : List UInt8) (start stop : Nat) :
    Comp.Takes (stop - start) (port.readInto buffer start stop) := by
  cases hslice : Buffer.slice buffer start stop with
  | none =>
      rw [readInto, hslice]
      exact Comp.Takes.panic _ _
  | some window =>
      rw [readInto, hslice, Comp.orPanic_some, Comp.pure_bind, ← Buffer.length_of_slice hslice]
      exact Comp.Takes.bind _ 0 (port.takes_read window.length) fun bytes =>
        Comp.Takes.orPanic _ (Buffer.store buffer start bytes)

theorem takes_receivePacket (out : Reassembly) : Comp.Takes 4 (port.receivePacket out) := by
  apply Comp.Takes.bind 4 0 (port.takes_readInto _ 0 4)
  intro buffer
  dsimp only
  split
  · apply Comp.Takes.bind 0 0 ((port.takes_readInto _ _ _).mono (Nat.zero_le _))
    intro buffer
    apply Comp.Takes.bind 0 0 (Comp.Takes.orPanic _ _)
    intro outSlice
    exact Comp.Takes.bind 0 0 (Comp.Takes.orPanic _ _) fun outBuf => Comp.Takes.pure _
  · exact Comp.Takes.panic _ _

def packetBody : Body Panic β Reassembly where
  round := port.receivePacket
  takes out := (port.takes_receivePacket out).mono (by omega)

section

variable (odp : OdpFfa)

def sendCmd (data : List UInt8) : Comp Panic β (Except ErrorCode DirectMessagePayload) := do
  port.write data
  let out ← port.packetBody.loop Reassembly.empty
  let received ← Comp.orPanic .outOfRange (Buffer.slice out.outBuf 0 out.outLen)
  let payload ← Comp.orPanic .collect (odp.collect received)
  pure (.ok payload)

def handleMessage (service : Service) (msg : MsgSendDirectReq2) (len : Nat) :
    Comp Panic β (Except ErrorCode DirectMessagePayload) := do
  let frame ← Comp.orPanic .outOfRange (encodeFrame odp service.eid msg len)
  let result ← port.sendCmd odp frame
  match result with
  | .ok value => pure (.ok value)
  | .error _ =>
      let payload ← Comp.orPanic .collect (odp.collect acpiErrorBytes)
      pure (.ok payload)

def ffaMsgSendDirectReq2 (request : Request) :
    Comp Panic β (Except ErrorCode MsgSendDirectResp2) := do
  let cmd ← Comp.orPanic .outOfRange (odp.u8At request.msg.payload 0)
  match request.service.commandInfo? cmd with
  | none => pure (.error .invalidParameters)
  | some info =>
      let commandCodeSizeBytes := 1
      let payload ← port.handleMessage odp request.service request.msg
        (info.payloadLen + commandCodeSizeBytes)
      pure (payload.map fun payload => { request := request.msg, payload })

end

/-- **Over the line, the service is the one of the earlier modules.** -/
theorem ffaMsgSendDirectReq2_linePort (odp : OdpFfa) (uart : EcUart) (request : Request) :
    (linePort uart).ffaMsgSendDirectReq2 odp request = Ec.ffaMsgSendDirectReq2 odp uart request :=
  rfl

/-! ### What the service adds to the history -/

section

variable {port} {invariant : List (List β) → Prop}
  (hwrite : ∀ data, Comp.Preserves invariant (port.write data))
  (hread : ∀ count, Comp.Preserves invariant (port.read count))

include hread

theorem preserves_readInto (buffer : List UInt8) (start stop : Nat) :
    Comp.Preserves invariant (port.readInto buffer start stop) := by
  refine (Comp.Preserves.orPanic _ _).bind fun window => ?_
  exact (hread window.length).bind fun _ => Comp.Preserves.orPanic _ _

theorem preserves_receivePacket (out : Reassembly) :
    Comp.Preserves invariant (port.receivePacket out) := by
  refine (preserves_readInto hread _ _ _).bind fun buffer => ?_
  dsimp only
  split
  · refine (preserves_readInto hread _ _ _).bind fun buffer => ?_
    refine (Comp.Preserves.orPanic _ _).bind fun outSlice => ?_
    exact (Comp.Preserves.orPanic _ _).bind fun outBuf => Comp.Preserves.pure _
  · exact Comp.Preserves.panic _

include hwrite

theorem preserves_sendCmd (odp : OdpFfa) (data : List UInt8) :
    Comp.Preserves invariant (port.sendCmd odp data) := by
  refine (hwrite data).bind fun _ => ?_
  refine (port.packetBody.preserves_loop (preserves_receivePacket hread) _).bind fun out => ?_
  refine (Comp.Preserves.orPanic _ _).bind fun received => ?_
  exact (Comp.Preserves.orPanic _ _).bind fun payload => Comp.Preserves.pure _

theorem preserves_handleMessage (odp : OdpFfa) (service : Service) (msg : MsgSendDirectReq2)
    (len : Nat) : Comp.Preserves invariant (port.handleMessage odp service msg len) := by
  refine (Comp.Preserves.orPanic _ _).bind fun frame => ?_
  refine (preserves_sendCmd hwrite hread odp frame).bind fun result => ?_
  cases result with
  | ok value => exact Comp.Preserves.pure _
  | error code => exact (Comp.Preserves.orPanic _ _).bind fun payload => Comp.Preserves.pure _

theorem preserves_ffaMsgSendDirectReq2 (odp : OdpFfa) (request : Request) :
    Comp.Preserves invariant (port.ffaMsgSendDirectReq2 odp request) := by
  refine (Comp.Preserves.orPanic _ _).bind fun cmd => ?_
  dsimp only
  split
  · exact Comp.Preserves.pure _
  · exact (preserves_handleMessage hwrite hread odp _ _ _).bind fun payload => Comp.Preserves.pure _

end

/-! ### Refinement -/

section

variable {port} {upper : Port γ} {view : List β → List γ}
  (hwrite : ∀ data, Refines view (port.write data) (upper.write data))
  (hread : ∀ count, Refines view (port.read count) (upper.read count))

include hread

theorem readInto_refines (buffer : List UInt8) (start stop : Nat) :
    Refines view (port.readInto buffer start stop) (upper.readInto buffer start stop) := by
  refine (Refines.orPanic _ _).bind fun window => ?_
  exact (hread window.length).bind fun _ => Refines.orPanic _ _

theorem receivePacket_refines (out : Reassembly) :
    Refines view (port.receivePacket out) (upper.receivePacket out) := by
  refine (readInto_refines hread _ _ _).bind fun buffer => ?_
  dsimp only
  split
  · refine (readInto_refines hread _ _ _).bind fun buffer => ?_
    refine (Refines.orPanic _ _).bind fun outSlice => ?_
    exact (Refines.orPanic _ _).bind fun outBuf => Refines.pure _
  · exact Refines.panic _

include hwrite

theorem sendCmd_refines (odp : OdpFfa) (data : List UInt8) :
    Refines view (port.sendCmd odp data) (upper.sendCmd odp data) := by
  have hround : ∀ out, Refines view (port.packetBody.round out) (upper.packetBody.round out) :=
    receivePacket_refines hread
  have hloop : Refines view (port.packetBody.loop Reassembly.empty)
      (upper.packetBody.loop Reassembly.empty) :=
    Refines.loop hround _
  refine (hwrite data).bind fun _ => ?_
  refine hloop.bind fun out => ?_
  refine (Refines.orPanic _ _).bind fun received => ?_
  exact (Refines.orPanic _ _).bind fun payload => Refines.pure _

theorem handleMessage_refines (odp : OdpFfa) (service : Service) (msg : MsgSendDirectReq2)
    (len : Nat) : Refines view (port.handleMessage odp service msg len)
      (upper.handleMessage odp service msg len) := by
  refine (Refines.orPanic _ _).bind fun frame => ?_
  refine (sendCmd_refines hwrite hread odp frame).bind fun result => ?_
  cases result with
  | ok value => exact Refines.pure _
  | error code => exact (Refines.orPanic _ _).bind fun payload => Refines.pure _

/-- A port that refines another one carries the whole service with it. -/
theorem ffaMsgSendDirectReq2_refines (odp : OdpFfa) (request : Request) :
    Refines view (port.ffaMsgSendDirectReq2 odp request)
      (upper.ffaMsgSendDirectReq2 odp request) := by
  refine (Refines.orPanic _ _).bind fun cmd => ?_
  dsimp only
  split
  · exact Refines.pure _
  · exact (handleMessage_refines hwrite hread odp _ _ _).bind fun payload => Refines.pure _

end

end Port

end OrionO6.Ec

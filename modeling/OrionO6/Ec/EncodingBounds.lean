import OrionO6.Ec.Session

/-!
# Indices of the encoder

`handle_message` reads the register payload byte by byte and stores into an array that has room for
a whole payload behind the headers. The bound of `CommandInfo::new` lets `payload_len` be as large
as the payload, whose byte 0 is the command code already.
-/

namespace OrionO6.Ec

open Serial

theorem commandInfo_new_eq_ok_iff {commandCode : UInt8} {payloadLen : Nat} {info : CommandInfo} :
    CommandInfo.new commandCode payloadLen = .ok info ↔
      info.commandCode = commandCode ∧ info.payloadLen = payloadLen := by
  obtain ⟨code, length, hlength⟩ := info
  unfold CommandInfo.new
  split
  · rename_i hlarge
    refine iff_of_false (by simp) ?_
    rintro ⟨-, hsame⟩
    exact absurd (hsame ▸ hlength) (Nat.not_le_of_gt hlarge)
  · simp [eq_comm]

inductive FrameAccess where
  | read (index : Nat)
  | write (index : Nat)

/-- The payload has 112 bytes, the array 125. -/
def FrameAccess.InBounds : FrameAccess → Prop
  | .read index => index < maxMessageSizeBytes
  | .write index => index < maxMessageSizeBytes + packetHeaderBytes

/-- The indices `handle_message` uses up to the transmit, in order. -/
def frameAccesses (len : Nat) : List FrameAccess :=
  (List.range 12).map .write ++ [.read 0, .write 12] ++
    (List.range' 1 (len - 1)).flatMap fun i => [.read i, .write (i + (packetHeaderBytes - 1))]

/-- Byte 0 is read for the header, so the last argument is at index `payloadLen`. -/
theorem read_mem_frameAccesses {payloadLen : Nat} (hpos : 0 < payloadLen) :
    FrameAccess.read payloadLen ∈ frameAccesses (payloadLen + 1) := by
  rw [frameAccesses, List.mem_append, List.mem_flatMap]
  refine Or.inr ⟨payloadLen, ?_, List.mem_cons_self⟩
  rw [List.mem_range'_1]
  omega

theorem frameAccesses_inBounds_iff {payloadLen : Nat} :
    (∀ access ∈ frameAccesses (payloadLen + 1), access.InBounds) ↔
      payloadLen < maxMessageSizeBytes := by
  constructor
  · intro hbounds
    by_contra hlong
    have hpos : 0 < maxMessageSizeBytes := by decide
    exact hlong (hbounds _ (read_mem_frameAccesses (by omega)))
  · intro hlen access haccess
    simp only [frameAccesses, List.mem_append, List.mem_map, List.mem_range, List.mem_cons,
      List.mem_flatMap, List.mem_range'_1, List.not_mem_nil, or_false] at haccess
    rcases haccess with (⟨index, hindex, rfl⟩ | rfl | rfl) | ⟨index, hindex, rfl | rfl⟩
    all_goals
      simp only [FrameAccess.InBounds, maxMessageSizeBytes, ffaPayloadRegisterCount,
        ffaRegisterSizeBytes, packetHeaderBytes, smbusPacketHeaderBytes, mctpPacketHeaderBytes,
        mctpMessageHeaderBytes, odpMessageHeaderBytes] at *
      omega

section

variable (odp : OdpFfa)

/-- The copy loop stops at the first index past the payload, if it may not be read. -/
theorem encodeFrame_eq_none (destinationEid : UInt8) (msg : MsgSendDirectReq2) {payloadLen : Nat}
    (hread : odp.u8At msg.payload maxMessageSizeBytes = none)
    (hlong : maxMessageSizeBytes ≤ payloadLen) :
    encodeFrame odp destinationEid msg (payloadLen + 1) = none := by
  obtain ⟨extra, rfl⟩ : ∃ extra, payloadLen = 111 + (extra + 1) := ⟨payloadLen - 112, by
    simp only [maxMessageSizeBytes, ffaPayloadRegisterCount, ffaRegisterSizeBytes] at hlong
    omega⟩
  set header := frameHeader destinationEid (UInt8.ofNat (8 + (111 + (extra + 1) + 1)))
    msg.commandCode with hheaderDef
  have hheader : header.length = 13 := rfl
  have hcopy := copy_arguments odp msg header hheader (by decide : 111 < maxMessageSizeBytes)
  rw [encodeFrame, u8At_zero, Option.bind_eq_bind, Option.bind_some, ← hheaderDef,
    store_header hheader, Nat.add_sub_cancel, ← List.range'_append_1]
  simp only [Option.bind_eq_bind, Option.bind_some, List.foldlM_append] at hcopy ⊢
  rw [hcopy, Option.bind_some, List.range'_succ, List.foldlM_cons]
  have hpast : odp.u8At msg.payload (1 + 111) = none := hread
  rw [hpast]
  rfl

theorem u8At_strict_eq_none (msg : MsgSendDirectReq2) :
    OdpFfa.strict.u8At msg.payload maxMessageSizeBytes = none :=
  List.getElem?_eq_none (Nat.le_of_eq msg.payload.length_bytes)

/-- Where every index is checked, the encoder panics at an index out of bounds and nowhere else. -/
theorem isSome_encodeFrame_strict_iff (destinationEid : UInt8) (msg : MsgSendDirectReq2)
    (payloadLen : Nat) :
    (encodeFrame OdpFfa.strict destinationEid msg (payloadLen + 1)).isSome = true ↔
      ∀ access ∈ frameAccesses (payloadLen + 1), access.InBounds := by
  rw [frameAccesses_inBounds_iff]
  by_cases hlen : payloadLen < maxMessageSizeBytes
  · rw [encodeFrame_eq OdpFfa.strict destinationEid msg hlen]
    exact iff_of_true rfl hlen
  · rw [encodeFrame_eq_none OdpFfa.strict destinationEid msg (u8At_strict_eq_none msg)
      (Nat.le_of_not_gt hlen)]
    exact iff_of_false (by simp) hlen

end

/-! ### Encoding a known request -/

/-- What is asked of the encoding of a request: every index is inside its array, the byte count is
not cut, and the frame is transmitted. -/
structure EncodesSafely (service : PassthroughService) (msg : MsgSendDirectReq2)
    (payloadLen : Nat) : Prop where
  inBounds : ∀ access ∈ frameAccesses (payloadLen + 1), access.InBounds
  byteCount : (UInt8.ofNat (8 + (payloadLen + 1))).toNat = 8 + (payloadLen + 1)
  transmits : ∀ odp line, ∃ frame,
    ((handleRequest odp service msg).run line).line.sent = line.sent ++ [frame]

theorem toNat_byteCount_of_le {payloadLen : Nat} (hlen : payloadLen ≤ maxMessageSizeBytes) :
    (UInt8.ofNat (8 + (payloadLen + 1))).toNat = 8 + (payloadLen + 1) := by
  simp only [maxMessageSizeBytes, ffaPayloadRegisterCount, ffaRegisterSizeBytes] at hlen
  rw [UInt8.toNat_ofNat']
  exact Nat.mod_eq_of_lt (by omega)

/-- **When a table entry makes encoding safe.** -/
theorem encodesSafely_iff {service : PassthroughService} {msg : MsgSendDirectReq2}
    {info : CommandInfo} (hinfo : service.commandInfo? msg.commandCode = some info) :
    EncodesSafely service msg info.payloadLen ↔ info.payloadLen < maxMessageSizeBytes := by
  constructor
  · intro hsafe
    exact frameAccesses_inBounds_iff.mp hsafe.inBounds
  · intro hlen
    refine ⟨frameAccesses_inBounds_iff.mpr hlen, toNat_byteCount_of_le info.payloadLen_le, ?_⟩
    intro odp line
    exact ⟨_, sends_handleRequest odp hinfo hlen line⟩

theorem encodesSafely_setVar :
    EncodesSafely (Service.thermal.new { ec := fun _ => [] })
      { payload := DirectMessagePayload.ofBytes [6, 1, 2, 3] } 23 := by
  have hinfo : (Service.thermal.new { ec := fun _ => [] }).commandInfo?
      (MsgSendDirectReq2.commandCode { payload := DirectMessagePayload.ofBytes [6, 1, 2, 3] }) =
        some ⟨0x6, 23, by decide⟩ := rfl
  exact (encodesSafely_iff hinfo).mpr (by decide)

/-- The longest entry `CommandInfo::new` accepts. -/
def longestCommand : CommandInfo := ⟨0x1, 112, by decide⟩

def longestCommandService : PassthroughService where
  uart := { ec := fun _ => [] }
  destinationEid := 8
  supportedCommands := [longestCommand]

theorem longestCommand_reads_past_payload :
    CommandInfo.new 0x1 112 = .ok longestCommand ∧
      longestCommandService.commandInfo? getBix.msg.commandCode = some longestCommand ∧
      FrameAccess.read 112 ∈ frameAccesses (longestCommand.payloadLen + 1) ∧
      ¬ EncodesSafely longestCommandService getBix.msg longestCommand.payloadLen ∧
      (handleRequest OdpFfa.strict longestCommandService getBix.msg).run ⟨[], []⟩ =
        .panicked .outOfRange ⟨[], []⟩ := by
  have hinfo : longestCommandService.commandInfo? getBix.msg.commandCode = some longestCommand := rfl
  have hnone : encodeFrame OdpFfa.strict 8 getBix.msg (112 + 1) = none :=
    encodeFrame_eq_none OdpFfa.strict 8 getBix.msg (u8At_strict_eq_none _) (by decide)
  have hread : FrameAccess.read 112 ∈ frameAccesses (112 + 1) := read_mem_frameAccesses (by decide)
  refine ⟨rfl, hinfo, hread, ?_, ?_⟩
  · intro hsafe
    exact absurd (hsafe.inBounds _ hread) (by simp [FrameAccess.InBounds])
  · have hframe : encodeFrame OdpFfa.strict longestCommandService.destinationEid getBix.msg
        (longestCommand.payloadLen + 1) = none := hnone
    rw [handleRequest_of_known OdpFfa.strict hinfo, handleMessage, hframe, Comp.orPanic_none,
      Comp.panic_bind, Comp.panic_bind, Comp.run_panic]

end OrionO6.Ec

import OrionO6.Ec.Session

/-!
# What the EC can observe of a request

The bytes a known request puts on the wire, compared over two runs that may differ in everything:
the service, the request, the line and the answers. Headers of one length make the frame decodable,
so frames agree exactly where the destination, the command and its declared arguments do.
-/

namespace OrionO6.Ec

open Serial

theorem Service.eid_injective : Function.Injective Service.eid := by
  intro service other hsame
  cases service <;> cases other <;> first | rfl | exact absurd hsame (by decide)

theorem Request.info?_eq_of_eq {request other : Request}
    (hservice : request.service.eid = other.service.eid)
    (hcommand : request.msg.commandCode = other.msg.commandCode) : request.info? = other.info? := by
  rw [Request.info?, Request.info?, Service.eid_injective hservice, hcommand]

theorem MsgSendDirectReq2.arguments_eq_iff {msg other : MsgSendDirectReq2} {count : Nat} :
    msg.arguments count = other.arguments count ↔
      ∀ index, 1 ≤ index → index ≤ count →
        msg.payload.bytes[index]? = other.payload.bytes[index]? := by
  constructor
  · intro hsame index hpos hle
    have hbyte := congrArg (·[index - 1]?) hsame
    simp only [arguments, List.getElem?_take_of_lt (by omega : index - 1 < count),
      List.getElem?_drop] at hbyte
    rwa [Nat.add_sub_cancel' hpos] at hbyte
  · intro hsame
    apply List.ext_getElem?
    intro index
    by_cases hindex : index < count
    · rw [arguments, arguments, List.getElem?_take_of_lt hindex, List.getElem?_take_of_lt hindex,
        List.getElem?_drop, List.getElem?_drop]
      exact hsame (1 + index) (by omega) (by omega)
    · rw [arguments, arguments, List.getElem?_take_eq_none (by omega),
        List.getElem?_take_eq_none (by omega)]

/-- A frame determines its destination, its command code and its arguments. -/
theorem wireFrame_eq_iff {eid otherEid : UInt8} {msg other : MsgSendDirectReq2}
    {payloadLen otherLen : Nat} (hlen : payloadLen < maxMessageSizeBytes)
    (hotherLen : otherLen < maxMessageSizeBytes) :
    wireFrame eid msg payloadLen = wireFrame otherEid other otherLen ↔
      eid = otherEid ∧ msg.commandCode = other.commandCode ∧ payloadLen = otherLen ∧
        msg.arguments payloadLen = other.arguments otherLen := by
  constructor
  · intro hsame
    obtain ⟨hheader, harguments⟩ := List.append_inj hsame rfl
    have heid := congrArg (·.getD 5 0) hheader
    have hcommand := congrArg (·.getD 12 0) hheader
    have hcount := congrArg List.length harguments
    rw [msg.length_arguments hlen, other.length_arguments hotherLen] at hcount
    exact ⟨heid, hcommand, hcount, harguments⟩
  · rintro ⟨rfl, hcommand, rfl, harguments⟩
    rw [wireFrame, wireFrame, hcommand, harguments]

/-- What a request appends to the bytes transmitted so far, whichever way it ends. -/
def transmitted (odp : OdpFfa) (uart : EcUart) (request : Request) (line : Line UInt8) :
    List UInt8 :=
  (((ffaMsgSendDirectReq2 odp uart request).run line).line.sent.drop line.sent.length).flatten

theorem transmitted_eq_frame (odp : OdpFfa) (uart : EcUart) {request : Request}
    {info : CommandInfo} (hinfo : request.info? = some info) (line : Line UInt8) :
    transmitted odp uart request line = request.frame info := by
  have htable : (request.service.new uart).commandInfo? request.msg.commandCode = some info := hinfo
  have hsent : ((ffaMsgSendDirectReq2 odp uart request).run line).line.sent =
      line.sent ++ [request.frame info] :=
    sends_handleRequest odp htable (payloadLen_lt_of_info hinfo) line
  rw [transmitted, hsent, List.drop_left, List.flatten_singleton]

/-- **The wire shows the declared arguments and nothing else.** Two known requests, in any two runs,
transmit the same bytes exactly when they are for the same destination, have the same command code
and agree on the bytes the command declares. -/
theorem transmitted_eq_iff (odp otherOdp : OdpFfa) (uart otherUart : EcUart)
    {request other : Request} {info otherInfo : CommandInfo} (hinfo : request.info? = some info)
    (hother : other.info? = some otherInfo) (line otherLine : Line UInt8) :
    transmitted odp uart request line = transmitted otherOdp otherUart other otherLine ↔
      request.service.eid = other.service.eid ∧
        request.msg.commandCode = other.msg.commandCode ∧
        ∀ index, 1 ≤ index → index ≤ info.payloadLen →
          request.msg.payload.bytes[index]? = other.msg.payload.bytes[index]? := by
  rw [transmitted_eq_frame odp uart hinfo, transmitted_eq_frame otherOdp otherUart hother,
    Request.frame, Request.frame,
    wireFrame_eq_iff (payloadLen_lt_of_info hinfo) (payloadLen_lt_of_info hother)]
  constructor
  · rintro ⟨heid, hcommand, hlen, harguments⟩
    rw [← hlen] at harguments
    exact ⟨heid, hcommand, MsgSendDirectReq2.arguments_eq_iff.mp harguments⟩
  · rintro ⟨heid, hcommand, hbytes⟩
    have hsame : info = otherInfo := by
      have htable := Request.info?_eq_of_eq heid hcommand
      rw [hinfo, hother] at htable
      exact Option.some.inj htable
    subst hsame
    exact ⟨heid, hcommand, rfl, MsgSendDirectReq2.arguments_eq_iff.mpr hbytes⟩

/-- `GetBix` declares one argument byte, and this byte comes after it. -/
def getBixBefore (trailing : UInt8) : Request where
  service := .battery
  msg := { payload := DirectMessagePayload.ofBytes [0x1, 0, trailing] }

theorem transmitted_getBixBefore :
    transmitted OdpFfa.strict { ec := fun _ => [] } (getBixBefore 7) ⟨[], []⟩ =
      transmitted OdpFfa.strict { ec := fun _ => [0xAA] } (getBixBefore 9) ⟨[], [0xBB]⟩ := by
  have hinfo (trailing : UInt8) : (getBixBefore trailing).info? = some ⟨0x1, 1, by decide⟩ := rfl
  apply (transmitted_eq_iff _ _ _ _ (hinfo 7) (hinfo 9) _ _).mpr
  refine ⟨rfl, rfl, fun index hpos hle => ?_⟩
  obtain rfl : index = 1 := Nat.le_antisymm hle hpos
  rfl

end OrionO6.Ec

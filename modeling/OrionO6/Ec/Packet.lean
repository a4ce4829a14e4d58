import Mathlib.Data.List.Basic
import OrionO6.Ec.Passthrough

/-!
# Packets and messages

What the EC puts on the line, apart from how the service reads it. A packet is an SMBus header, an
MCTP header and content, with a byte count that counts what follows the SMBus header; a message is a
run of packets with SOM on the first only and EOM on the last only, whose first packet has room for
the ODP header. Both are types of well-formed values.
-/

namespace OrionO6.Ec

/-- A packet whose byte count the receiver accepts. The count is not a field: it is determined by
the content. -/
structure Packet where
  destination : UInt8
  command : UInt8
  source : UInt8
  headerVersion : UInt8
  destinationEid : UInt8
  sourceEid : UInt8
  flags : UInt8
  content : List UInt8
  content_le : content.length ≤ 65

namespace Packet

def byteCount (packet : Packet) : Nat := 4 + packet.content.length

def bytes (packet : Packet) : List UInt8 := [
  packet.destination, packet.command, UInt8.ofNat packet.byteCount, packet.source,
  packet.headerVersion, packet.destinationEid, packet.sourceEid, packet.flags] ++ packet.content

/-- The start-of-message flag. -/
def som (packet : Packet) : Bool := packet.flags &&& 0x80 ≠ 0

/-- The end-of-message flag. -/
def eom (packet : Packet) : Bool := packet.flags &&& 0x40 ≠ 0

/-- What a packet contributes to the body of its message: the first packet also carries the MCTP
message type and the ODP header. -/
def payload (packet : Packet) : List UInt8 :=
  if packet.som then packet.content.drop 5 else packet.content

@[simp]
theorem length_bytes (packet : Packet) : packet.bytes.length = 4 + packet.byteCount := by
  simp only [bytes, byteCount, List.length_append, List.length_cons, List.length_nil]
  omega

theorem payload_eq_drop_bytes (packet : Packet) :
    packet.payload = packet.bytes.drop (if packet.som then 13 else 8) := by
  unfold payload
  split <;> rfl

theorem toNat_byteCount (packet : Packet) :
    (UInt8.ofNat packet.byteCount).toNat = packet.byteCount := by
  have hcontent := packet.content_le
  rw [UInt8.toNat_ofNat']
  exact Nat.mod_eq_of_lt (by unfold byteCount; omega)

/-- **Every accepted packet is a `Packet`.** Bytes with a count from 4 to 69 at index 2 that are as
long as the count says are the bytes of one. -/
theorem exists_bytes_eq {raw : List UInt8} {count : UInt8} (hcount : raw[2]? = some count)
    (hlow : 4 ≤ count.toNat) (hhigh : count.toNat ≤ 69) (hlength : raw.length = 4 + count.toNat) :
    ∃ packet : Packet, packet.bytes = raw ∧ packet.byteCount = count.toNat := by
  match raw, hlength with
  | [], hlength | [_], hlength | [_, _], hlength | [_, _, _], hlength | [_, _, _, _], hlength
  | [_, _, _, _, _], hlength | [_, _, _, _, _, _], hlength
  | [_, _, _, _, _, _, _], hlength =>
      simp only [List.length_cons, List.length_nil] at hlength
      omega
  | destination :: command :: count' :: source :: headerVersion :: destinationEid :: sourceEid ::
      flags :: content, hlength =>
      simp only [List.length_cons] at hlength
      have hcount' : count' = count := by simpa using hcount
      subst hcount'
      have hbyteCount : 4 + content.length = count'.toNat := by omega
      refine ⟨⟨destination, command, source, headerVersion, destinationEid, sourceEid, flags,
        content, by omega⟩, ?_, hbyteCount⟩
      simp [bytes, byteCount, hbyteCount]

end Packet

/-- Packets up to and including the first with the EOM flag. -/
def Closed (packets : List Packet) : Prop :=
  ∃ before last, packets = before ++ [last] ∧ (∀ packet ∈ before, packet.eom = false) ∧
    last.eom = true

theorem Closed.singleton {packet : Packet} (heom : packet.eom = true) : Closed [packet] :=
  ⟨[], packet, rfl, List.forall_mem_nil _, heom⟩

theorem Closed.cons {packet : Packet} {packets : List Packet} (heom : packet.eom = false)
    (hclosed : Closed packets) : Closed (packet :: packets) := by
  obtain ⟨before, last, rfl, hbefore, hlast⟩ := hclosed
  exact ⟨packet :: before, last, rfl, List.forall_mem_cons.mpr ⟨heom, hbefore⟩, hlast⟩

/-- A list of packets has one closed front at most. -/
theorem Closed.unique {packets packets' rest rest' : List Packet} (hclosed : Closed packets)
    (hclosed' : Closed packets') (happend : packets ++ rest = packets' ++ rest') :
    packets = packets' ∧ rest = rest' := by
  obtain ⟨before, last, rfl, hbefore, hlast⟩ := hclosed
  obtain ⟨before', last', rfl, hbefore', hlast'⟩ := hclosed'
  induction before generalizing before' with
  | nil =>
      cases before' with
      | nil =>
          obtain ⟨rfl, rfl⟩ := List.cons.inj happend
          exact ⟨rfl, rfl⟩
      | cons packet before' =>
          obtain ⟨rfl, -⟩ := List.cons.inj happend
          rw [hbefore' last List.mem_cons_self] at hlast
          cases hlast
  | cons packet before ih =>
      cases before' with
      | nil =>
          obtain ⟨rfl, -⟩ := List.cons.inj happend
          rw [hbefore packet List.mem_cons_self] at hlast'
          cases hlast'
      | cons packet' before' =>
          obtain ⟨rfl, hrest⟩ := List.cons.inj happend
          obtain ⟨hsame, rfl⟩ := ih (List.forall_mem_cons.mp hbefore).2 before' hrest
            (List.forall_mem_cons.mp hbefore').2
          exact ⟨congrArg (packet :: ·) hsame, rfl⟩

structure Message where
  first : Packet
  later : List Packet
  som_first : first.som = true
  odp_first : 9 ≤ first.byteCount
  som_later : ∀ packet ∈ later, packet.som = false
  eom_last : ((first :: later).getLast (List.cons_ne_nil _ _)).eom = true
  eom_before : ∀ packet ∈ (first :: later).dropLast, packet.eom = false

namespace Message

def packets (message : Message) : List Packet := message.first :: message.later

def bytes (message : Message) : List UInt8 := message.packets.flatMap Packet.bytes

/-- The bytes after the first 13 of the first packet, then those after the first 8 of each later
one. -/
def body (message : Message) : List UInt8 :=
  message.first.bytes.drop 13 ++ message.later.flatMap fun packet => packet.bytes.drop 8

def serviceId (message : Message) : UInt8 := message.first.content.getD 2 0

/-- The low byte of the ODP header's command code, the only one in use. -/
def commandCode (message : Message) : UInt8 := message.first.content.getD 4 0

theorem serviceId_eq (message : Message) : message.serviceId = message.bytes.getD 10 0 := by
  have hcontent : 5 ≤ message.first.content.length := by
    have hodp := message.odp_first
    unfold Packet.byteCount at hodp
    omega
  have hfirst : message.first.bytes.getD 10 0 = message.first.content.getD 2 0 := rfl
  have hlength : 10 < message.first.bytes.length := by
    rw [Packet.length_bytes, Packet.byteCount]
    omega
  calc message.serviceId
    _ = message.first.bytes.getD 10 0 := hfirst.symm
    _ = (message.first.bytes ++ message.later.flatMap Packet.bytes).getD 10 0 := by
          rw [List.getD_eq_getElem?_getD, List.getD_eq_getElem?_getD,
            List.getElem?_append_left hlength]
    _ = message.bytes.getD 10 0 := by rw [bytes, packets, List.flatMap_cons]

theorem packets_eq (message : Message) :
    message.packets = message.packets.dropLast ++
      [message.packets.getLast (List.cons_ne_nil _ _)] :=
  (List.dropLast_concat_getLast _).symm

theorem body_eq_flatMap_payload (message : Message) :
    message.body = message.packets.flatMap Packet.payload := by
  rw [body, packets, List.flatMap_cons, Packet.payload_eq_drop_bytes, message.som_first, if_pos rfl]
  refine congrArg (_ ++ ·) (List.flatMap_congr fun packet hpacket => ?_)
  rw [Packet.payload_eq_drop_bytes, message.som_later packet hpacket, if_neg (by simp)]

theorem closed_packets (message : Message) : Closed message.packets :=
  ⟨_, _, message.packets_eq, message.eom_before, message.eom_last⟩

/-- The closed front of whole messages one after another is the first of them. -/
theorem exists_of_closed_append {messages : List Message} {taken rest : List Packet}
    (hclosed : Closed taken) (hmessages : messages.flatMap packets = taken ++ rest) :
    ∃ message later, messages = message :: later ∧ taken = message.packets ∧
      rest = later.flatMap packets := by
  cases messages with
  | nil =>
      obtain ⟨before, last, rfl, -⟩ := hclosed
      simp at hmessages
  | cons message later =>
      rw [List.flatMap_cons] at hmessages
      obtain ⟨htaken, hrest⟩ := message.closed_packets.unique hclosed hmessages
      exact ⟨message, later, rfl, htaken.symm, hrest.symm⟩

end Message

end OrionO6.Ec

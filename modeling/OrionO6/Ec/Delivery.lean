import Mathlib.Data.List.Forall2
import OrionO6.Ec.Session

/-!
# What a request takes off the line

Between the EC and the services lies one queue of packets: each request takes those up to the first
that ends a message and leaves the rest, and it compares no header. If messages are put on the line
whole, what it takes is one of them; and if the EC answers each frame with one message and nothing else
is ever on the line, that message is the answer.
-/

namespace OrionO6.Ec

open Serial

/-! ### Packets in any order -/

/-- An EC that puts packets on the line, in any order. -/
def packetEc (ec : List (List UInt8) → List Packet) : EcUart where
  ec := fun sent => (ec sent).flatMap Packet.bytes

/-- What an EC puts on the line upon `frames`, sent one by one after `before`. -/
def arrivals {α : Type} (ec : List (List UInt8) → List α) (before : List (List UInt8)) :
    List (List UInt8) → List α
  | [] => []
  | frame :: frames => ec (before ++ [frame]) ++ arrivals ec (before ++ [frame]) frames

theorem arrivals_flatMap {α β : Type} (ec : List (List UInt8) → List α) (parts : α → List β) :
    ∀ (frames before : List (List UInt8)),
      arrivals (fun sent => (ec sent).flatMap parts) before frames =
        (arrivals ec before frames).flatMap parts := by
  intro frames
  induction frames with
  | nil => exact fun _ => rfl
  | cons frame frames ih =>
      intro before
      rw [arrivals, arrivals, ih, List.flatMap_append]

/-- The response of an exchange carries the payloads of some packets, and the bytes the exchange took
off the line are those of these packets. None but the last of them ends a message. -/
structure TakenFrom (odp : OdpFfa) (ec : List (List UInt8) → List Packet) (exchange : EcExchange)
    (packets : List Packet) : Prop where
  closed : Closed packets
  took : exchange.before.pending ++ (packetEc ec).ec exchange.after.sent =
    packets.flatMap Packet.bytes ++ exchange.after.pending
  response_eq : ∃ payload, odp.collect (packets.flatMap Packet.payload) = some payload ∧
    exchange.response = .ok { request := exchange.request.msg, payload }

theorem TakenFrom.isOk {odp : OdpFfa} {ec : List (List UInt8) → List Packet}
    {exchange : EcExchange} {packets : List Packet} (htaken : TakenFrom odp ec exchange packets) :
    exchange.response.isOk = true := by
  obtain ⟨payload, -, hresponse⟩ := htaken.response_eq
  rw [hresponse]
  rfl

/-- **One request takes the oldest packets.** Everything a request that returns can have done: it was
refused, or it took the packets up to the first that ends a message and answers with those. -/
theorem refused_or_taken (odp : OdpFfa) (ec : List (List UInt8) → List Packet) {request : Request}
    {queue : List Packet} {sent : List (List UInt8)}
    {response : Except ErrorCode MsgSendDirectResp2} {line : Line UInt8}
    (hdone : (ffaMsgSendDirectReq2 odp (packetEc ec) request).run
      ⟨sent, queue.flatMap Packet.bytes⟩ = .done response line) :
    (response = .error .invalidParameters ∧ line = ⟨sent, queue.flatMap Packet.bytes⟩) ∨
      ∃ info taken rest, queue ++ ec (sent ++ [request.frame info]) = taken ++ rest ∧
        line = ⟨sent ++ [request.frame info], rest.flatMap Packet.bytes⟩ ∧
        TakenFrom odp ec
          { request, response, before := ⟨sent, queue.flatMap Packet.bytes⟩, after := line }
          taken := by
  cases hinfo : request.info? with
  | none =>
      rw [ffaMsgSendDirectReq2_of_unknown odp hinfo, Comp.run_pure] at hdone
      cases hdone
      exact .inl ⟨rfl, rfl⟩
  | some info =>
      obtain ⟨result, line', hsend, hresult⟩ := sendCmd_of_ffaMsgSendDirectReq2_done odp hinfo hdone
      have hpending : queue.flatMap Packet.bytes ++
          (packetEc ec).ec (sent ++ [request.frame info]) =
            (queue ++ ec (sent ++ [request.frame info])).flatMap Packet.bytes := by
        rw [List.flatMap_append]
        rfl
      obtain ⟨taken, rest, payload, hpackets, hclosed, hcollect, hok, rfl⟩ :=
        exists_closed_of_sendCmd_done odp hpending hsend
      obtain ⟨rfl, rfl⟩ := hresult payload hok
      refine .inr ⟨info, taken, rest, hpackets, rfl, hclosed, ?_, payload, hcollect, rfl⟩
      rw [hpending, hpackets, List.flatMap_append]

theorem exists_takings (odp : OdpFfa) (ec : List (List UInt8) → List Packet) :
    ∀ (requests : List Request) (queue : List Packet) (sent : List (List UInt8))
      (log : List EcExchange) (final : Line UInt8),
      session (ffaMsgSendDirectReq2 odp (packetEc ec)) requests
          ⟨sent, queue.flatMap Packet.bytes⟩ = .done log final →
        ∃ frames taken left,
          final = ⟨sent ++ frames, left.flatMap Packet.bytes⟩ ∧
          queue ++ arrivals ec sent frames = taken.flatten ++ left ∧
          List.Forall₂ (TakenFrom odp ec)
            (log.filter fun exchange => exchange.response.isOk) taken := by
  intro requests
  induction requests with
  | nil =>
      intro queue sent log final hsession
      cases hsession
      exact ⟨[], [], queue, by rw [List.append_nil], by simp [arrivals], List.Forall₂.nil⟩
  | cons request requests ih =>
      intro queue sent log final hsession
      obtain ⟨response, line', rest, hhandle, htail, rfl⟩ := session_cons_done _ hsession
      rcases refused_or_taken odp ec hhandle with
        ⟨rfl, rfl⟩ | ⟨info, first, queue', hqueue, rfl, hfirst⟩
      · exact ih queue sent rest final htail
      · obtain ⟨frames, taken, left, hfinal, harrivals, htaken⟩ :=
          ih queue' (sent ++ [request.frame info]) rest final htail
        refine ⟨request.frame info :: frames, first :: taken, left, ?_, ?_, ?_⟩
        · rw [hfinal, List.append_assoc, List.singleton_append]
        · rw [arrivals, ← List.append_assoc, hqueue, List.append_assoc, harrivals,
            List.flatten_cons, List.append_assoc]
        · rw [List.filter_cons, if_pos hfirst.isOk]
          exact List.Forall₂.cons hfirst htaken

/-! ### Whole messages -/

theorem flatMap_bytes (messages : List Message) :
    messages.flatMap Message.bytes = (messages.flatMap Message.packets).flatMap Packet.bytes :=
  List.flatMap_assoc.symm

theorem messageEc_eq (ec : List (List UInt8) → List Message) :
    messageEc ec = packetEc fun sent => (ec sent).flatMap Message.packets :=
  congrArg EcUart.mk (funext fun sent => flatMap_bytes (ec sent))

/-- The response of an exchange carries the body of a message, and the bytes the exchange took off
the line are those of that message. -/
structure DeliveredFrom (odp : OdpFfa) (ec : List (List UInt8) → List Message)
    (exchange : EcExchange) (message : Message) : Prop where
  took : exchange.before.pending ++ (messageEc ec).ec exchange.after.sent =
    message.bytes ++ exchange.after.pending
  response_eq : ∃ payload, odp.collect message.body = some payload ∧
    exchange.response = .ok { request := exchange.request.msg, payload }

theorem TakenFrom.delivered {odp : OdpFfa} {ec : List (List UInt8) → List Message}
    {exchange : EcExchange} {message : Message}
    (htaken : TakenFrom odp (fun sent => (ec sent).flatMap Message.packets) exchange
      message.packets) : DeliveredFrom odp ec exchange message := by
  obtain ⟨-, htook, hresponse⟩ := htaken
  rw [← messageEc_eq] at htook
  rw [← message.body_eq_flatMap_payload] at hresponse
  exact ⟨htook, hresponse⟩

/-- Closed runs taken one after another off whole messages are messages. -/
theorem exists_messages_of_takings {left : List Packet} :
    ∀ (taken : List (List Packet)) (messages : List Message), (∀ packets ∈ taken, Closed packets) →
      messages.flatMap Message.packets = taken.flatten ++ left →
      ∃ delivered later, messages = delivered ++ later ∧ taken = delivered.map Message.packets ∧
        left = later.flatMap Message.packets := by
  intro taken
  induction taken with
  | nil =>
      intro messages _ hmessages
      exact ⟨[], messages, rfl, rfl, hmessages.symm⟩
  | cons packets taken ih =>
      intro messages hclosed hmessages
      obtain ⟨hfirst, hlater⟩ := List.forall_mem_cons.mp hclosed
      rw [List.flatten_cons, List.append_assoc] at hmessages
      obtain ⟨message, messages, rfl, rfl, hrest⟩ :=
        Message.exists_of_closed_append hfirst hmessages
      obtain ⟨delivered, later, rfl, rfl, rfl⟩ := ih messages hlater hrest.symm
      exact ⟨message :: delivered, later, rfl, rfl, rfl⟩

theorem refused_or_delivered (odp : OdpFfa) (ec : List (List UInt8) → List Message)
    {request : Request} {queue : List Message} {sent : List (List UInt8)}
    {response : Except ErrorCode MsgSendDirectResp2} {line : Line UInt8}
    (hdone : (ffaMsgSendDirectReq2 odp (messageEc ec) request).run
      ⟨sent, queue.flatMap Message.bytes⟩ = .done response line) :
    (response = .error .invalidParameters ∧ line = ⟨sent, queue.flatMap Message.bytes⟩) ∨
      ∃ info message rest, queue ++ ec (sent ++ [request.frame info]) = message :: rest ∧
        line = ⟨sent ++ [request.frame info], rest.flatMap Message.bytes⟩ ∧
        DeliveredFrom odp ec
          { request, response, before := ⟨sent, queue.flatMap Message.bytes⟩, after := line }
          message := by
  rw [messageEc_eq] at hdone
  rw [flatMap_bytes] at hdone ⊢
  rcases refused_or_taken odp _ hdone with hrefused | ⟨info, taken, rest, hqueue, rfl, htaken⟩
  · exact .inl hrefused
  · rw [← List.flatMap_append] at hqueue
    obtain ⟨message, later, hmessages, rfl, rfl⟩ :=
      Message.exists_of_closed_append htaken.closed hqueue
    refine .inr ⟨info, message, later, hmessages, ?_, htaken.delivered⟩
    rw [flatMap_bytes]

theorem exists_deliveries (odp : OdpFfa) (ec : List (List UInt8) → List Message)
    (requests : List Request) (queue : List Message) (sent : List (List UInt8))
    (log : List EcExchange) (final : Line UInt8)
    (hsession : session (ffaMsgSendDirectReq2 odp (messageEc ec)) requests
      ⟨sent, queue.flatMap Message.bytes⟩ = .done log final) :
    ∃ frames delivered left,
      final = ⟨sent ++ frames, left.flatMap Message.bytes⟩ ∧
      queue ++ arrivals ec sent frames = delivered ++ left ∧
      List.Forall₂ (DeliveredFrom odp ec)
        (log.filter fun exchange => exchange.response.isOk) delivered := by
  rw [messageEc_eq, flatMap_bytes] at hsession
  obtain ⟨frames, taken, left, rfl, harrivals, htaken⟩ :=
    exists_takings odp _ requests _ sent log final hsession
  rw [arrivals_flatMap, ← List.flatMap_append] at harrivals
  have hclosed : ∀ packets ∈ taken, Closed packets :=
    ((List.forall₂_and_left _ _).mp (htaken.flip.imp fun _ _ hpackets =>
      ⟨hpackets.closed, hpackets⟩)).1
  obtain ⟨delivered, later, hmessages, rfl, rfl⟩ :=
    exists_messages_of_takings taken _ hclosed harrivals
  refine ⟨frames, delivered, later, by rw [flatMap_bytes], hmessages, ?_⟩
  exact (List.forall₂_map_right_iff.mp htaken).imp fun _ _ => TakenFrom.delivered

/-- A message names a request when its ODP header is about the service and the command. -/
def Names (message : Message) (request : Request) : Prop :=
  message.serviceId = request.service.eid ∧ message.commandCode = request.msg.commandCode

/-- An EC that answers each frame with one message, whose header names the service and the command
at bytes 10 and 12 of the frame, and says nothing else. -/
def Solicited (ec : List (List UInt8) → List Message) : Prop :=
  ∀ sent frame, ∃ message, ec (sent ++ [frame]) = [message] ∧
    message.serviceId = frame.getD 10 0 ∧ message.commandCode = frame.getD 12 0

theorem names_of_solicited (odp : OdpFfa) {ec : List (List UInt8) → List Message}
    (hsolicited : Solicited ec) :
    ∀ (requests : List Request) (sent : List (List UInt8)) (log : List EcExchange)
      (final : Line UInt8),
      session (ffaMsgSendDirectReq2 odp (messageEc ec)) requests ⟨sent, []⟩ = .done log final →
        ∀ exchange ∈ log, exchange.response.isOk = true →
          ∃ message, DeliveredFrom odp ec exchange message ∧ Names message exchange.request := by
  intro requests
  induction requests with
  | nil =>
      intro sent log final hsession exchange hexchange
      cases hsession
      cases hexchange
  | cons request requests ih =>
      intro sent log final hsession exchange hexchange hok
      obtain ⟨response, line', rest, hhandle, htail, rfl⟩ := session_cons_done _ hsession
      have hidle : (ffaMsgSendDirectReq2 odp (messageEc ec) request).run
          ⟨sent, ([] : List Message).flatMap Message.bytes⟩ = .done response line' := hhandle
      rcases refused_or_delivered odp ec hidle with
        ⟨rfl, rfl⟩ | ⟨info, message, queue, hqueue, rfl, hdelivered⟩
      · rcases List.mem_cons.mp hexchange with rfl | hrest
        · cases hok
        · exact ih sent rest final htail exchange hrest hok
      · obtain ⟨answer, hanswer, hservice, hcommand⟩ := hsolicited sent (request.frame info)
        rw [List.nil_append, hanswer] at hqueue
        cases hqueue
        rcases List.mem_cons.mp hexchange with rfl | hrest
        · exact ⟨message, hdelivered, hservice, hcommand⟩
        · exact ih _ rest final htail exchange hrest hok

/-- **Answers are taken in arrival order.** Whatever packets the EC puts on the line and whenever, the
requests that are answered take them in order, each one those up to the first that ends a message.
Where the messages are put on the line whole, one after another, each of these requests takes one
message, whomever it is about; and where the EC answers every frame and says nothing else, that message
names the request. -/
theorem deliveries_in_order (odp : OdpFfa) (ec : List (List UInt8) → List Packet)
    (requests : List Request) (queue : List Packet) (sent : List (List UInt8))
    (log : List EcExchange) (final : Line UInt8)
    (hsession : session (ffaMsgSendDirectReq2 odp (packetEc ec)) requests
      ⟨sent, queue.flatMap Packet.bytes⟩ = .done log final) :
    (∃ frames taken left,
      final = ⟨sent ++ frames, left.flatMap Packet.bytes⟩ ∧
      queue ++ arrivals ec sent frames = taken.flatten ++ left ∧
      List.Forall₂ (TakenFrom odp ec)
        (log.filter fun exchange => exchange.response.isOk) taken) ∧
    ∀ (messages : List Message) (whole : List (List UInt8) → List Message),
      queue = messages.flatMap Message.packets →
      (∀ sent, ec sent = (whole sent).flatMap Message.packets) →
      (∃ frames delivered left,
        final = ⟨sent ++ frames, left.flatMap Message.bytes⟩ ∧
        messages ++ arrivals whole sent frames = delivered ++ left ∧
        List.Forall₂ (DeliveredFrom odp whole)
          (log.filter fun exchange => exchange.response.isOk) delivered ∧
        ∀ message ∈ delivered, message.first.som = true) ∧
      (messages = [] → Solicited whole → ∀ exchange ∈ log, exchange.response.isOk = true →
        ∃ message, DeliveredFrom odp whole exchange message ∧ Names message exchange.request) := by
  refine ⟨exists_takings odp ec requests queue sent log final hsession, ?_⟩
  intro messages whole hqueue hec
  obtain rfl : ec = fun sent => (whole sent).flatMap Message.packets := funext hec
  rw [hqueue, ← flatMap_bytes, ← messageEc_eq] at hsession
  constructor
  · obtain ⟨frames, delivered, left, hfinal, harrivals, hdelivered⟩ :=
      exists_deliveries odp whole requests messages sent log final hsession
    exact ⟨frames, delivered, left, hfinal, harrivals, hdelivered,
      fun message _ => message.som_first⟩
  · intro hmessages hsolicited
    rw [hmessages] at hsession
    exact names_of_solicited odp hsolicited requests sent log final hsession

/-! ### Three lines -/

/-- The EC answers its first frame in two packets and says something about the thermal service between
them and upon the next frame. -/
def tornEc (sent : List (List UInt8)) : List Packet :=
  if sent.length = 1 then splitReply.first :: (strayMessage.packets ++ splitReply.later)
  else strayMessage.packets

def tornLog : List EcExchange :=
  let line : Line UInt8 := ⟨[getBixFrame], splitReply.later.flatMap Packet.bytes⟩
  [⟨getBix, okResponse getBix [0xB1, 0xAA], ⟨[], []⟩, line⟩,
    ⟨getTmp, okResponse getTmp [0xB2], line,
      ⟨[getBixFrame, getTmpFrame], strayMessage.packets.flatMap Packet.bytes⟩⟩]

theorem session_torn :
    session (ffaMsgSendDirectReq2 OdpFfa.strict (packetEc tornEc)) [getBix, getTmp]
        ⟨[], ([] : List Packet).flatMap Packet.bytes⟩ =
      .done tornLog ⟨[getBixFrame, getTmpFrame], strayMessage.packets.flatMap Packet.bytes⟩ := by
  have hfirst : [] ++ (packetEc tornEc).ec ([] ++ [getBix.frame ⟨0x1, 1, by decide⟩]) =
      (splitReply.first :: strayMessage.packets).flatMap Packet.bytes ++
        splitReply.later.flatMap Packet.bytes := rfl
  have hsecond : splitReply.later.flatMap Packet.bytes ++
      (packetEc tornEc).ec ([getBixFrame] ++ [getTmp.frame ⟨0x1, 1, by decide⟩]) =
        splitReply.later.flatMap Packet.bytes ++ strayMessage.packets.flatMap Packet.bytes := rfl
  have hclosed : Closed (splitReply.first :: strayMessage.packets) :=
    strayMessage.closed_packets.cons (by decide)
  have hodp : ∀ packet ∈ splitReply.first :: strayMessage.packets,
      packet.som = true → 9 ≤ packet.byteCount := by decide
  have hshort : ((splitReply.first :: strayMessage.packets).flatMap Packet.payload).length ≤
      maxMessageSizeBytes := by decide
  refine session_cons_of_done _ (ffaMsgSendDirectReq2_of_packets OdpFfa.strict info_getBix hfirst
    hclosed hodp hshort) ?_
  have hclosedLater : Closed splitReply.later := .singleton (by decide)
  have hodpLater : ∀ packet ∈ splitReply.later, packet.som = true → 9 ≤ packet.byteCount := by
    decide
  have hshortLater : (splitReply.later.flatMap Packet.payload).length ≤ maxMessageSizeBytes := by
    decide
  exact session_cons_of_done _ (ffaMsgSendDirectReq2_of_packets OdpFfa.strict info_getTmp hsecond
    hclosedLater hodpLater hshortLater) rfl

/-- The EC answers its first frame in two packets; a message about the thermal service may still be on
the line. -/
def wholeEc (sent : List (List UInt8)) : List Message :=
  if sent.length = 1 then [splitReply] else [strayMessage]

def wholeLog : List EcExchange :=
  let line : Line UInt8 := ⟨[getBixFrame], [splitReply].flatMap Message.bytes⟩
  [⟨getBix, okResponse getBix [0xAA], ⟨[], [strayMessage].flatMap Message.bytes⟩, line⟩,
    ⟨getTmp, okResponse getTmp [0xB1, 0xB2], line,
      ⟨[getBixFrame, getTmpFrame], [strayMessage].flatMap Message.bytes⟩⟩]

theorem session_whole :
    session (ffaMsgSendDirectReq2 OdpFfa.strict
        (packetEc fun sent => (wholeEc sent).flatMap Message.packets)) [getBix, getTmp]
        ⟨[], ([strayMessage].flatMap Message.packets).flatMap Packet.bytes⟩ =
      .done wholeLog ⟨[getBixFrame, getTmpFrame], [strayMessage].flatMap Message.bytes⟩ := by
  have hfirst : [strayMessage].flatMap Message.bytes ++
      (messageEc wholeEc).ec ([] ++ [getBix.frame ⟨0x1, 1, by decide⟩]) =
        strayMessage.bytes ++ [splitReply].flatMap Message.bytes := rfl
  have hsecond : [splitReply].flatMap Message.bytes ++
      (messageEc wholeEc).ec ([getBixFrame] ++ [getTmp.frame ⟨0x1, 1, by decide⟩]) =
        splitReply.bytes ++ [strayMessage].flatMap Message.bytes := rfl
  have hstray : strayMessage.body.length ≤ maxMessageSizeBytes := by decide
  have hsplit : splitReply.body.length ≤ maxMessageSizeBytes := by decide
  rw [← messageEc_eq, ← flatMap_bytes]
  refine session_cons_of_done _
    (ffaMsgSendDirectReq2_of_reply OdpFfa.strict info_getBix hfirst hstray) ?_
  exact session_cons_of_done _
    (ffaMsgSendDirectReq2_of_reply OdpFfa.strict info_getTmp hsecond hsplit) rfl

/-- An EC that answers a frame with its service and command, and no body. -/
def echo (sent : List (List UInt8)) : List Message :=
  [requestMessage ((sent.getLastD []).getD 10 0)
    { payload := DirectMessagePayload.ofBytes [(sent.getLastD []).getD 12 0] } 0 (by decide)]

theorem solicited_echo : Solicited echo := by
  intro sent frame
  refine ⟨_, rfl, ?_, ?_⟩
  · rw [List.getLastD_concat]
    rfl
  · rw [List.getLastD_concat]
    rfl

def echoLog : List EcExchange :=
  [⟨getBix, okResponse getBix [], ⟨[], []⟩, ⟨[getBixFrame], []⟩⟩,
    ⟨getTmp, okResponse getTmp [], ⟨[getBixFrame], []⟩, ⟨[getBixFrame, getTmpFrame], []⟩⟩]

theorem session_echo :
    session (ffaMsgSendDirectReq2 OdpFfa.strict
        (packetEc fun sent => (echo sent).flatMap Message.packets)) [getBix, getTmp]
        ⟨[], ([] : List Packet).flatMap Packet.bytes⟩ =
      .done echoLog ⟨[getBixFrame, getTmpFrame], []⟩ := by
  let reply (eid : UInt8) :=
    requestMessage eid { payload := DirectMessagePayload.ofBytes [0x1] } 0 (by decide)
  have hfirst : [] ++ (messageEc echo).ec ([] ++ [getBix.frame ⟨0x1, 1, by decide⟩]) =
      (reply 8).bytes ++ [] := rfl
  have hsecond : [] ++
      (messageEc echo).ec ([getBixFrame] ++ [getTmp.frame ⟨0x1, 1, by decide⟩]) =
        (reply 9).bytes ++ [] := rfl
  have hshort (eid : UInt8) : (reply eid).body.length ≤ maxMessageSizeBytes := Nat.zero_le _
  rw [← messageEc_eq]
  refine session_cons_of_done _
    (ffaMsgSendDirectReq2_of_reply OdpFfa.strict info_getBix hfirst (hshort 8)) ?_
  exact session_cons_of_done _
    (ffaMsgSendDirectReq2_of_reply OdpFfa.strict info_getTmp hsecond (hshort 9)) rfl

/-- A message between the two packets of a reply ends it, and the next request takes its tail; a
message before the reply shifts the answers by one; and an EC that only answers is understood. -/
theorem deliveries_in_order_torn :
    (∃ frames taken left,
      (⟨[getBixFrame, getTmpFrame], strayMessage.packets.flatMap Packet.bytes⟩ : Line UInt8) =
        ⟨[] ++ frames, left.flatMap Packet.bytes⟩ ∧
      [] ++ arrivals tornEc [] frames = taken.flatten ++ left ∧
      List.Forall₂ (TakenFrom OdpFfa.strict tornEc)
        (tornLog.filter fun exchange => exchange.response.isOk) taken) ∧
    (∃ frames delivered left,
      (⟨[getBixFrame, getTmpFrame], [strayMessage].flatMap Message.bytes⟩ : Line UInt8) =
        ⟨[] ++ frames, left.flatMap Message.bytes⟩ ∧
      [strayMessage] ++ arrivals wholeEc [] frames = delivered ++ left ∧
      List.Forall₂ (DeliveredFrom OdpFfa.strict wholeEc)
        (wholeLog.filter fun exchange => exchange.response.isOk) delivered ∧
      ∀ message ∈ delivered, message.first.som = true) ∧
    ∀ exchange ∈ echoLog, exchange.response.isOk = true →
      ∃ message, DeliveredFrom OdpFfa.strict echo exchange message ∧
        Names message exchange.request := by
  refine ⟨?_, ?_, ?_⟩
  · exact (deliveries_in_order OdpFfa.strict tornEc [getBix, getTmp] [] [] _ _ session_torn).1
  · exact ((deliveries_in_order OdpFfa.strict _ [getBix, getTmp] _ [] _ _ session_whole).2
      [strayMessage] wholeEc rfl fun _ => rfl).1
  · exact ((deliveries_in_order OdpFfa.strict _ [getBix, getTmp] [] [] _ _ session_echo).2
      [] echo rfl fun _ => rfl).2 rfl solicited_echo

/-! ### A stray message -/

def strayExchange : EcExchange where
  request := getBix
  response := .ok {
    request := getBix.msg
    payload := DirectMessagePayload.ofBytes strayMessage.body }
  before := ⟨[], [strayMessage].flatMap Message.bytes⟩
  after := ⟨[wireFrame 8 getBix.msg 1], [getBixReply].flatMap Message.bytes⟩

theorem took_strayMessage :
    strayExchange.before.pending ++
        (messageEc fun _ => [getBixReply]).ec strayExchange.after.sent =
      strayMessage.bytes ++ strayExchange.after.pending := by
  change [strayMessage].flatMap Message.bytes ++ _ = _
  rw [List.flatMap_cons, List.flatMap_nil, List.append_nil]
  rfl

theorem session_getBix_of_stray :
    session (ffaMsgSendDirectReq2 OdpFfa.strict (messageEc fun _ => [getBixReply])) [getBix]
      ⟨[], [strayMessage].flatMap Message.bytes⟩ = .done [strayExchange] strayExchange.after := by
  have hshort : strayMessage.body.length ≤ maxMessageSizeBytes := by decide
  exact session_cons_of_done _
    (ffaMsgSendDirectReq2_of_reply OdpFfa.strict info_getBix took_strayMessage hshort) rfl

/-- The battery request is answered with the message about the thermal service. -/
theorem getBix_answered_by_stray :
    ∃ log final,
      session (ffaMsgSendDirectReq2 OdpFfa.strict (messageEc fun _ => [getBixReply])) [getBix]
        ⟨[], [strayMessage].flatMap Message.bytes⟩ = .done log final ∧
      ∃ exchange ∈ log, exchange.response.isOk = true ∧
        DeliveredFrom OdpFfa.strict (fun _ => [getBixReply]) exchange strayMessage ∧
        ∀ message, DeliveredFrom OdpFfa.strict (fun _ => [getBixReply]) exchange message →
          ¬ Names message exchange.request := by
  refine ⟨_, _, session_getBix_of_stray, strayExchange, List.mem_singleton.mpr rfl, rfl, ?_, ?_⟩
  · exact ⟨took_strayMessage, _, OdpFfa.strict.collect_of_le _ (by decide), rfl⟩
  · intro message hdelivered hnames
    have hbytes : message.bytes = strayMessage.bytes :=
      List.append_cancel_right (hdelivered.took.symm.trans took_strayMessage)
    have hservice : message.serviceId = 9 := by
      rw [message.serviceId_eq, hbytes, ← strayMessage.serviceId_eq]
      rfl
    rw [Names, hservice] at hnames
    exact absurd hnames.1 (by decide)

end OrionO6.Ec

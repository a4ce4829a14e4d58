import OrionO6.Ec.Registers
import OrionO6.Ec.Session
import OrionO6.Library.Ranges

/-!
# The device memory of the secure partition

The partition's manifest grants one page for the EC UART. The driver has its own base address. What
the driver touches follows from that address alone: the flag register before every byte, then the
data register.
-/

namespace OrionO6.Ec

open Serial

/-- An entry of the manifest's `device-regions`. -/
structure DeviceRegion where
  baseAddress : Nat
  pagesCount : Nat

/-- `xlat-granule = <0>`, which stands for 4 KiB. -/
def xlatGranule : Nat := 4096

def ecUartRegion : DeviceRegion where
  baseAddress := 0x040D0000
  pagesCount := 0x1

def deviceRegions : List DeviceRegion := [ecUartRegion]

def DeviceRegion.pages (region : DeviceRegion) : Ranges.Range Nat where
  lower := region.baseAddress
  upper := region.baseAddress + region.pagesCount * xlatGranule

/-- The addresses the manifest grants. -/
def granted : Set Nat := Ranges.cover (deviceRegions.map DeviceRegion.pages)

theorem mem_granted_iff (address : Nat) :
    address ∈ granted ↔ 0x040D0000 ≤ address ∧ address < 0x040D1000 := by
  simp [granted, Ranges.cover, deviceRegions, DeviceRegion.pages, ecUartRegion, xlatGranule,
    Ranges.Range.toSet]

/-- Every access in a history of the bus is to granted memory. -/
def OnlyGranted (history : List (List UInt64)) : Prop :=
  ∀ access : Access, access.frame ∈ history → access.address.toNat ∈ granted

/-- The accesses of the services while they handle requests, when the device answers loads with
these words. A device that answers no further load shows the run so far. -/
def accesses (odp : OdpFfa) (base : UInt64) (requests : List Request) (answers : List UInt64) :
    List (List UInt64) :=
  (session ((registerPort base).ffaMsgSendDirectReq2 odp) requests ⟨[], answers⟩).line.sent

theorem Access.frame_injective : Function.Injective Access.frame := by
  intro access other hframe
  cases access with
  | load address =>
      cases other with
      | load address' =>
          injection hframe with haddress _
          rw [haddress]
      | store address' value =>
          injection hframe with _ hrest
          cases hrest
  | store address value =>
      cases other with
      | load address' =>
          injection hframe with _ hrest
          cases hrest
      | store address' value' =>
          injection hframe with haddress hrest
          injection hrest with hvalue _
          rw [haddress, UInt32.toUInt64_inj.mp hvalue]

theorem allows_onlyGranted {access : Access} (haccess : access.address.toNat ∈ granted) :
    Allows OnlyGranted access := by
  intro sent hsent other hother
  rcases List.mem_append.mp hother with hbefore | hlast
  · exact hsent other hbefore
  · rwa [Access.frame_injective (List.mem_singleton.mp hlast)]

/-- A driver whose two registers are granted stays within the grant, whatever the requests and
whatever the device answers. -/
theorem onlyGranted_of_base {base : UInt64} (hdr : (uartDr base).toNat ∈ granted)
    (hfr : (uartFr base).toNat ∈ granted) (odp : OdpFfa) (requests : List Request)
    (answers : List UInt64) : OnlyGranted (accesses odp base requests answers) := by
  apply preserves_session _ (preserves_registerPort (allows_onlyGranted hfr)
    (allows_onlyGranted hdr) (fun _ => allows_onlyGranted hdr) odp)
  intro access haccess
  cases haccess

/-- So it would with the base address of the manifest. -/
theorem onlyGranted_at_manifest_base (odp : OdpFfa) (requests : List Request)
    (answers : List UInt64) :
    OnlyGranted (accesses odp (UInt64.ofNat ecUartRegion.baseAddress) requests answers) := by
  apply onlyGranted_of_base
  · rw [mem_granted_iff]
    decide
  · rw [mem_granted_iff]
    decide

/-! ### The first access -/

section

variable (odp : OdpFfa) {base : UInt64} {request : Request}

/-- The flag register has been loaded at some point of the history. -/
def Polled (base : UInt64) (history : List (List UInt64)) : Prop :=
  (Access.load (uartFr base)).frame ∈ history

theorem allows_polled (access : Access) : Allows (Polled base) access :=
  fun _ hsent => List.mem_append_left _ hsent

theorem ensures_waitClear (flag : UInt32) :
    Comp.Ensures (Polled base) (waitClear base flag) := by
  rintro ⟨sent, answers⟩
  obtain ⟨polls, hblocked | ⟨rest, -, hdone⟩⟩ := waitClear_cases base flag answers sent
  · rw [hblocked]
    exact List.mem_append_right _ List.mem_cons_self
  · rw [hdone]
    exact List.mem_append_right _ List.mem_cons_self

theorem ensures_writeBytes {data : List UInt8} (hdata : data ≠ []) :
    Comp.Ensures (Polled base) (writeBytes base data) := by
  have hpreserves := @preserves_writeBytes base (Polled base) (allows_polled _)
    (fun _ => allows_polled _)
  obtain ⟨byte, bytes, rfl⟩ := List.exists_cons_of_ne_nil hdata
  have hbyte : Comp.Ensures (Polled base) (writeByte base byte) :=
    (ensures_waitClear _).bind fun _ => Comp.Preserves.send _ (allows_polled _)
  exact hbyte.bind fun _ => hpreserves bytes

theorem ffaMsgSendDirectReq2_registerPort_of_known {info : CommandInfo}
    (hinfo : request.info? = some info) :
    (registerPort base).ffaMsgSendDirectReq2 odp request =
      (registerPort base).handleMessage odp request.service request.msg (info.payloadLen + 1) >>=
        fun payload => pure (payload.map fun payload => { request := request.msg, payload }) := by
  have htable : request.service.commandInfo? request.msg.commandCode = some info := hinfo
  rw [Port.ffaMsgSendDirectReq2, u8At_zero, Comp.orPanic_some, Comp.pure_bind, htable]

theorem ffaMsgSendDirectReq2_registerPort_of_unknown (hunknown : request.info? = none) :
    (registerPort base).ffaMsgSendDirectReq2 odp request = pure (.error .invalidParameters) := by
  have htable : request.service.commandInfo? request.msg.commandCode = none := hunknown
  rw [Port.ffaMsgSendDirectReq2, u8At_zero, Comp.orPanic_some, Comp.pure_bind, htable]

/-- A known command writes its frame, and the first byte of the frame is polled for. -/
theorem ensures_of_known {info : CommandInfo} (hinfo : request.info? = some info) :
    Comp.Ensures (Polled base) ((registerPort base).ffaMsgSendDirectReq2 odp request) := by
  have hread := @preserves_readBytes base (Polled base) (allows_polled _) (allows_polled _)
  have hframe := encodeFrame_eq odp request.service.eid request.msg (payloadLen_lt_of_info hinfo)
  have hsend :
      Comp.Ensures (Polled base) ((registerPort base).sendCmd odp (request.frame info)) := by
    refine (ensures_writeBytes (List.cons_ne_nil _ _)).bind fun _ => ?_
    refine ((registerPort base).packetBody.preserves_loop
      (Port.preserves_receivePacket hread) _).bind fun out => ?_
    refine (Comp.Preserves.orPanic _ _).bind fun received => ?_
    exact (Comp.Preserves.orPanic _ _).bind fun payload => Comp.Preserves.pure _
  rw [ffaMsgSendDirectReq2_registerPort_of_known odp hinfo, Port.handleMessage, hframe,
    Comp.orPanic_some, Comp.pure_bind]
  refine Comp.Ensures.bind (hsend.bind fun result => ?_) fun payload => Comp.Preserves.pure _
  cases result with
  | ok value => exact Comp.Preserves.pure _
  | error code => exact (Comp.Preserves.orPanic _ _).bind fun payload => Comp.Preserves.pure _

theorem accesses_of_unknown (base : UInt64) {requests : List Request}
    (hunknown : ∀ request ∈ requests, request.info? = none) (answers : List UInt64) :
    accesses odp base requests answers = [] := by
  induction requests with
  | nil => rfl
  | cons request requests ih =>
      have hhandle : ((registerPort base).ffaMsgSendDirectReq2 odp request).run ⟨[], answers⟩ =
          .done (.error .invalidParameters) ⟨[], answers⟩ := by
        rw [ffaMsgSendDirectReq2_registerPort_of_unknown odp (hunknown request List.mem_cons_self)]
        rfl
      rw [accesses, line_session_cons_of_done _ hhandle]
      exact ih fun later hlater => hunknown later (List.mem_cons_of_mem _ hlater)

/-- Once a known command is among the requests, the flag register is loaded. -/
theorem polled_of_known {base : UInt64} {requests : List Request}
    (hknown : ∃ request ∈ requests, request.info? ≠ none) (answers : List UInt64) :
    Polled base (accesses odp base requests answers) := by
  induction requests with
  | nil =>
      obtain ⟨request, hrequest, -⟩ := hknown
      cases hrequest
  | cons request requests ih =>
      cases hinfo : request.info? with
      | none =>
          have hhandle : ((registerPort base).ffaMsgSendDirectReq2 odp request).run ⟨[], answers⟩ =
              .done (.error .invalidParameters) ⟨[], answers⟩ := by
            rw [ffaMsgSendDirectReq2_registerPort_of_unknown odp hinfo]
            rfl
          obtain ⟨later, hlater, hlaterInfo⟩ := hknown
          rcases List.mem_cons.mp hlater with rfl | htail
          · exact absurd hinfo hlaterInfo
          · rw [accesses, line_session_cons_of_done _ hhandle]
            exact ih ⟨later, htail, hlaterInfo⟩
      | some info =>
          apply sent_session_cons _ (ensures_of_known odp hinfo _)
          exact preserves_session _ (preserves_registerPort (allows_polled _) (allows_polled _)
            (fun _ => allows_polled _) odp) requests

end

theorem uartFr_not_granted : (uartFr uartBase).toNat ∉ granted := by
  rw [mem_granted_iff]
  decide

/-- **When the secure partition keeps to its grant.** Whatever the device answers, the run stays
within granted memory if and only if no request names a command its service knows. -/
theorem onlyGranted_iff (odp : OdpFfa) (requests : List Request) (answers : List UInt64) :
    OnlyGranted (accesses odp uartBase requests answers) ↔
      ∀ request ∈ requests, request.info? = none := by
  constructor
  · intro honly
    by_contra hknown
    push Not at hknown
    exact uartFr_not_granted (honly _ (polled_of_known odp hknown answers))
  · intro hunknown
    rw [accesses_of_unknown odp uartBase hunknown]
    intro access haccess
    cases haccess

/-- Any run of `Battery`'s `GetBix` polls the flag register; here the TX FIFO has room at once. -/
theorem getBix_leaves_grant :
    (Access.load 0x040E0018).frame ∈ accesses OdpFfa.strict uartBase [getBix] [0] ∧
      ¬ OnlyGranted (accesses OdpFfa.strict uartBase [getBix] [0]) := by
  have hinfo : getBix.info? = some ⟨0x1, 1, by decide⟩ := rfl
  have hknown : ∃ request ∈ [getBix], request.info? ≠ none :=
    ⟨getBix, List.mem_singleton_self _, by rw [hinfo]; exact Option.some_ne_none _⟩
  have hpolled : Polled uartBase (accesses OdpFfa.strict uartBase [getBix] [0]) :=
    polled_of_known OdpFfa.strict hknown [0]
  exact ⟨hpolled, fun honly => uartFr_not_granted (honly _ hpolled)⟩

end OrionO6.Ec

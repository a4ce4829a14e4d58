import OrionO6.Ec.Passthrough

/-!
# The services on the UART

Battery, Thermal and TimeAlarm are passthrough services that differ in their EID and their command
table. The three share one UART.
-/

namespace OrionO6.Ec

open Serial

inductive Service where
  | battery
  | thermal
  | timeAlarm
  deriving DecidableEq

namespace Service

def batteryCommands : List CommandInfo := [
  ⟨0x1, 1, by decide⟩, -- GetBix
  ⟨0x2, 1, by decide⟩, -- GetBst
  ⟨0x3, 1, by decide⟩, -- GetPsr
  ⟨0x4, 1, by decide⟩, -- GetPif
  ⟨0x5, 1, by decide⟩, -- GetBps
  ⟨0x6, 2, by decide⟩, -- SetBtp
  ⟨0x7, 2, by decide⟩, -- SetBpt
  ⟨0x8, 1, by decide⟩, -- GetBpc
  ⟨0x9, 2, by decide⟩, -- SetBmc
  ⟨0xa, 1, by decide⟩, -- GetBmd
  ⟨0xb, 1, by decide⟩, -- GetBct
  ⟨0xc, 1, by decide⟩, -- GetBtm
  ⟨0xd, 2, by decide⟩, -- SetBms
  ⟨0xe, 2, by decide⟩, -- SetBma
  ⟨0xf, 1, by decide⟩, -- GetSta
  ⟨0x80, 1, by decide⟩] -- SetNfy

def thermalCommands : List CommandInfo := [
  ⟨0x1, 1, by decide⟩, -- GetTmp
  ⟨0x2, 13, by decide⟩, -- SetThrs
  ⟨0x3, 1, by decide⟩, -- GetThrs
  ⟨0x4, 13, by decide⟩, -- SetScp
  ⟨0x5, 19, by decide⟩, -- GetVar
  ⟨0x6, 23, by decide⟩] -- SetVar

def timeAlarmCommands : List CommandInfo := [
  ⟨1, 0, by decide⟩, -- GetCapabilities / _GCP
  ⟨2, 0, by decide⟩, -- GetRealTime / _GRT
  ⟨3, 16, by decide⟩, -- SetRealTime / _SRT
  ⟨4, 4, by decide⟩, -- GetWakeStatus / _GWS
  ⟨5, 4, by decide⟩, -- ClearWakeStatus / _CWS
  ⟨6, 8, by decide⟩, -- SetTimerValue / _STV
  ⟨7, 4, by decide⟩, -- GetTimerValue / _TIV
  ⟨8, 8, by decide⟩, -- SetExpiredTimerPolicy / _STP
  ⟨9, 4, by decide⟩] -- GetExpiredTimerPolicy / _TIP

def eid : Service → UInt8
  | battery => 8
  | thermal => 9
  | timeAlarm => 0xB

def commands : Service → List CommandInfo
  | battery => batteryCommands
  | thermal => thermalCommands
  | timeAlarm => timeAlarmCommands

/-- `Battery::new`, `Thermal::new` and `TimeAlarm::new`. -/
def new (service : Service) (uart : EcUart) : PassthroughService where
  uart := uart
  destinationEid := service.eid
  supportedCommands := service.commands

def commandInfo? (service : Service) (cmd : UInt8) : Option CommandInfo :=
  service.commands.find? fun info => info.commandCode == cmd

/-- The longest argument list is that of `SetVar`; with the headers, every frame of the three
services fits one MCTP packet. -/
theorem payloadLen_le_of_mem {service : Service} {info : CommandInfo}
    (hmem : info ∈ service.commands) : info.payloadLen ≤ 23 := by
  have hall : ∀ service : Service, ∀ info ∈ service.commands, info.payloadLen ≤ 23 := by
    intro service
    cases service <;> simp [commands, batteryCommands, thermalCommands, timeAlarmCommands]
  exact hall service info hmem

theorem commandInfo?_eq_some {service : Service} {cmd : UInt8} {info : CommandInfo}
    (hinfo : service.commandInfo? cmd = some info) :
    info.commandCode = cmd ∧ info.payloadLen ≤ 23 := by
  refine ⟨?_, payloadLen_le_of_mem (List.mem_of_find?_eq_some hinfo)⟩
  simpa using List.find?_some hinfo

end Service

/-- A request as the message loop delivers it: to the service its UUID names. -/
structure Request where
  service : Service
  msg : MsgSendDirectReq2

def ffaMsgSendDirectReq2 (odp : OdpFfa) (uart : EcUart) (request : Request) :
    Uart (Except ErrorCode MsgSendDirectResp2) :=
  handleRequest odp (request.service.new uart) request.msg

end OrionO6.Ec

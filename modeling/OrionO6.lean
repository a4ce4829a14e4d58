import OrionO6.Library.Buffer
import OrionO6.Library.Serial
import OrionO6.Library.SerialRefinement
import OrionO6.Library.Transcript
import OrionO6.Library.Resumption
import OrionO6.Library.Regex
import OrionO6.Library.Lexer
import OrionO6.Library.LexerCut
import OrionO6.Library.Brackets
import OrionO6.Library.Traced
import OrionO6.Library.Machine
import OrionO6.Library.Memory
import OrionO6.Library.Store
import OrionO6.Library.Ranges
import OrionO6.Library.Codes
import OrionO6.Library.Collect
import OrionO6.Library.BoundedText
import OrionO6.Ec.Passthrough
import OrionO6.Ec.Services
import OrionO6.Ec.Packet
import OrionO6.Ec.Receive
import OrionO6.Ec.Encode
import OrionO6.Ec.Session
import OrionO6.Ec.Delivery
import OrionO6.Ec.Unpacking
import OrionO6.Ec.Capacity
import OrionO6.Ec.EncodingBounds
import OrionO6.Ec.Observation
import OrionO6.Ec.Progress
import OrionO6.Ec.Port
import OrionO6.Ec.Registers
import OrionO6.Ec.DeviceRegions
import OrionO6.Ec.FlowControl
import OrionO6.Ec.Fifo
import OrionO6.Ec.Replies
import OrionO6.Ec.Completion
import OrionO6.Ec.EndToEnd
import OrionO6.Ec.Sharing
import OrionO6.Ec.Isolation
import OrionO6.Ec.FrameStream
import OrionO6.Flash.Instance
import OrionO6.Flash.Fvb
import OrionO6.Flash.BlockIo
import OrionO6.Flash.Containment
import OrionO6.Flash.WriteProtection
import OrionO6.Flash.Region
import OrionO6.Flash.Erase
import OrionO6.Flash.Transfer
import OrionO6.Flash.Truncation
import OrionO6.Flash.Header
import OrionO6.Flash.HeaderRoundTrip
import OrionO6.Flash.HeaderExamined
import OrionO6.Flash.HeaderRegion
import OrionO6.Flash.SharedStore
import OrionO6.Flash.Clients
import OrionO6.Flash.Formatted
import OrionO6.Flash.EraseFailure
import OrionO6.Flash.Relocation
import OrionO6.Flash.Startup
import OrionO6.Flash.Published
import OrionO6.Flash.Restart
import OrionO6.Dxe.LogMessage
import OrionO6.Dxe.LogStream
import OrionO6.Acpi.AslText
import OrionO6.Acpi.AslToken
import OrionO6.Acpi.BlockComment
import OrionO6.Acpi.Extract
import OrionO6.Acpi.NamedBlock
import OrionO6.Acpi.BlockShape
import OrionO6.Platform.MemoryMap
import OrionO6.Platform.Coverage
import OrionO6.Platform.Attributes
import OrionO6.Platform.CoreInfo

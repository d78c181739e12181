import Libts.Packet.Pcr
import Libts.Packet.Ebp
import Libts.Packet.Framing
import Libts.Packet.AdaptationField
import Libts.Packet.Length
import Libts.Packet.Repack
import Libts.Packet.Continuity
import Libts.Base.Demux
import Libts.Unit.Unit
import Libts.Unit.Units
import Libts.Unit.BytePath
import Libts.Psi.Psi
import Libts.Psi.Pmt
import Libts.Psi.PmtRoundTrip
import Libts.Psi.Pat
import Libts.Stream.Pes
import Libts.Base.Selection
import Libts.Stream.Stream
import Libts.Stream.Table
import Libts.Stream.Remux
import Libts.Stream.Interleaving
import Libts.Stream.Description
import Libts.Packet.PcrCodec
import Libts.Packet.Dropped
import Libts.Packet.Marker
import Libts.Stream.PesRoundTrip
import Libts.Stream.PesGrammar
import Libts.Stream.PesLength
import Libts.Stream.PesRecode
import Libts.Stream.History
import Libts.Stream.MergeOrder
import Libts.Base.WriteOnce
import Libts.Stream.Repeated
import Libts.Stream.Recode
import Libts.Psi.PmtGrammar
import Libts.Psi.PmtLoops
import Libts.Psi.PatGrammar
import Libts.Psi.Identity
import Libts.Base.Crc
import Libts.Psi.Checksum
import Libts.Packet.Isolation
import Libts.Stream.Padding
import Libts.Stream.Refused
import Libts.Stream.Incomplete
import Libts.Base.PosixFile
import Libts.Packet.Save
import Libts.Bytestream.Calls
import Libts.Base.PosixRead
import Libts.Base.Transcoder
import Libts.Packet.Clocks
import Libts.Packet.Load
import Libts.Packet.Blocks
import Libts.Programs.Extract
import Libts.Base.Search
import Libts.Base.Stuffing
import Libts.Packet.Session
import Libts.Programs.Nal
import Libts.Stream.Parts
import Libts.Unit.Parts
import Libts.Programs.Pipelines
